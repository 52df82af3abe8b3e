import RemoteConfig.Json.Parser
import RemoteConfig.Json.Printer
import RemoteConfig.Proofs.Digits
/-! # Number literals

Every number is written as a literal that the reader takes off the front of a text as it was
written, whatever follows behind the end of the number.  The literal of an integer denotes that
integer.  The literal of a floating number always shows a point or an exponent, so it never denotes
an integer. -/

namespace RemoteConfig.Json

open Decimal

/-- A text behind a value: nothing, a comma, or the end of an array or object. -/
def Ends (rest : List Char) : Prop := ∀ c ∈ rest.head?, c = ',' ∨ c = ']' ∨ c = '\x7d'

theorem ends_nil : Ends [] := nofun

theorem ends_cons {c : Char} (h : c = ',' ∨ c = ']' ∨ c = '\x7d') (rest : List Char) :
    Ends (c :: rest) := by
  rintro _ ⟨⟩
  exact h

theorem Ends.noDigit {rest : List Char} (h : Ends rest) : NoDigit rest := by
  intro c hc
  rcases h c hc with rfl | rfl | rfl <;> rfl

namespace Literal

/-! ## The text of a literal -/

def fractionText : Option (List Char) → List Char
  | none => []
  | some digits => '.' :: digits

def exponentText : Option (Bool × List Char) → List Char
  | none => []
  | some (negative, digits) => 'e' :: (if negative then '-' else '+') :: digits

/-- The text without the sign. -/
def body (l : Literal) : List Char :=
  l.whole ++ (fractionText l.fraction ++ exponentText l.exponent)

def text (l : Literal) : List Char := (if l.negative then ['-'] else []) ++ l.body

/-- Each part has digits, and no zero stands before another digit. -/
structure WellFormed (l : Literal) : Prop where
  whole : IsDigits l.whole
  unpadded : l.whole = ['0'] ∨ l.whole.head? ≠ some '0'
  fraction : ∀ digits ∈ l.fraction, IsDigits digits
  exponent : ∀ e ∈ l.exponent, IsDigits e.2

variable {l : Literal} {rest : List Char}

theorem exponentPart_append (hl : l.WellFormed) (hr : Ends rest) :
    Token.exponentPart (exponentText l.exponent ++ rest) = some (l.exponent, rest) := by
  cases he : l.exponent with
  | none =>
      cases rest with
      | nil => rfl
      | cons c rest =>
          have hc : ¬(c = 'e' ∨ c = 'E') := by
            rcases hr c rfl with rfl | rfl | rfl <;> decide
          simp only [exponentText, List.nil_append, Token.exponentPart, if_neg hc]
  | some e =>
      obtain ⟨negative, digits⟩ := e
      have hd : IsDigits digits := hl.exponent _ he
      have hsign : splitSign ((if negative then '-' else '+') :: (digits ++ rest)) =
          (negative, digits ++ rest) := by cases negative <;> rfl
      have hne : digits.isEmpty = false := by simp [hd.ne_nil]
      show Token.exponentPart ('e' :: (if negative then '-' else '+') :: (digits ++ rest)) = _
      rw [Token.exponentPart, if_pos (.inl rfl), hsign]
      simp only [hd.splitDigits_append hr.noDigit, hne, Bool.false_eq_true, if_false]

theorem noDigit_exponentText (e : Option (Bool × List Char)) (hr : Ends rest) :
    NoDigit (exponentText e ++ rest) := by
  cases e with
  | none => exact hr.noDigit
  | some e => exact noDigit_cons rfl

/-- No point stands before an exponent, or where a literal ends. -/
theorem head_exponentText_ne_point (e : Option (Bool × List Char)) (hr : Ends rest) :
    ∀ c ∈ (exponentText e ++ rest).head?, c ≠ '.' := by
  cases e with
  | none =>
      intro c hc
      rcases hr c hc with rfl | rfl | rfl <;> decide
  | some e =>
      rintro _ ⟨⟩
      decide

/-- Where no point stands, no fraction is read. -/
theorem fractionPart_of_ne_point {cs : List Char} (h : ∀ c ∈ cs.head?, c ≠ '.') :
    Token.fractionPart cs = some (none, cs) := by
  unfold Token.fractionPart
  split
  · exact absurd rfl (h '.' rfl)
  · rfl

theorem fractionPart_append (hl : l.WellFormed) (hr : Ends rest) :
    Token.fractionPart (fractionText l.fraction ++ (exponentText l.exponent ++ rest)) =
      some (l.fraction, exponentText l.exponent ++ rest) := by
  cases hf : l.fraction with
  | none => exact fractionPart_of_ne_point (head_exponentText_ne_point l.exponent hr)
  | some digits =>
      have hd : IsDigits digits := hl.fraction _ hf
      have hne : digits.isEmpty = false := by simp [hd.ne_nil]
      have hsplit := hd.splitDigits_append (noDigit_exponentText l.exponent hr)
      show Token.fractionPart ('.' :: (digits ++ (exponentText l.exponent ++ rest))) = _
      simp only [Token.fractionPart, hsplit, hne, Bool.false_eq_true, if_false]

theorem noDigit_fractionText (l : Literal) (hr : Ends rest) :
    NoDigit (fractionText l.fraction ++ (exponentText l.exponent ++ rest)) := by
  cases l.fraction with
  | none => exact noDigit_exponentText l.exponent hr
  | some digits => exact noDigit_cons rfl

/-- A literal without its sign is taken off the front of a text. -/
theorem unsignedNumber_append (hl : l.WellFormed) (hr : Ends rest) :
    Token.unsignedNumber l.negative (l.body ++ rest) = some (l, rest) := by
  have hwhole : (l.whole.isEmpty || (l.whole.head? == some '0' && decide (1 < l.whole.length)))
      = false := by
    have hne : l.whole.isEmpty = false := by simp [hl.whole.ne_nil]
    rw [hne, Bool.false_or]
    rcases hl.unpadded with h | h
    · rw [h]
      rfl
    · rw [beq_false_of_ne h, Bool.false_and]
  rw [Token.unsignedNumber, body, List.append_assoc, List.append_assoc,
    hl.whole.splitDigits_append (noDigit_fractionText l hr)]
  simp only [hwhole, Bool.false_eq_true, if_false, fractionPart_append hl hr,
    exponentPart_append hl hr]

/-- A character that begins a number. -/
theorem head_text (hl : l.WellFormed) :
    ∃ c tail, l.text = c :: tail ∧ (c = '-' ∨ c.isDigit = true) := by
  obtain ⟨c, tail, hcons⟩ := List.exists_cons_of_ne_nil hl.whole.ne_nil
  unfold text body
  rw [hcons]
  cases l.negative with
  | true => exact ⟨'-', _, rfl, .inl rfl⟩
  | false => exact ⟨c, _, rfl, .inr (hl.whole.all c (by simp [hcons]))⟩

theorem leaf?_append (hl : l.WellFormed) (hr : Ends rest) :
    Token.leaf? (l.text ++ rest) = some (l.value, rest) := by
  have hread := unsignedNumber_append hl hr
  cases hneg : l.negative with
  | true =>
      rw [hneg] at hread
      have htext : l.text ++ rest = '-' :: (l.body ++ rest) := by simp [text, hneg]
      rw [htext, Token.leaf?, hread]
      rfl
  | false =>
      rw [hneg] at hread
      have htext : l.text ++ rest = l.body ++ rest := by simp [text, hneg]
      obtain ⟨c, tail, hcons⟩ := List.exists_cons_of_ne_nil hl.whole.ne_nil
      have hdigit := (isDigit_iff_mem c).mp (hl.whole.all c (by simp [hcons]))
      have hbody : l.body ++ rest =
          c :: (tail ++ (fractionText l.fraction ++ exponentText l.exponent) ++ rest) := by
        simp [body, hcons]
      rw [htext]
      unfold Token.leaf?
      -- no word and no sign begins with a digit
      split <;> rename_i heq
      iterate 4
        · rw [hbody] at heq
          injection heq with hc
          subst hc
          exact absurd hdigit (by decide)
      · rw [hread]
        rfl

/-- A literal is the first token of a text that it begins. -/
theorem step_append (hl : l.WellFormed) (hr : Ends rest) :
    Token.step (l.text ++ rest) = some (some (.leaf l.value), rest) := by
  have hread := leaf?_append hl hr
  obtain ⟨c, tail, hcons, hc⟩ := head_text hl
  rw [hcons, List.cons_append] at hread ⊢
  have hplain : Token.isSpace c = false ∧ Token.mark? c = none ∧ c ≠ '"' := by
    rcases hc with rfl | hc
    · exact ⟨rfl, rfl, by decide⟩
    · rw [isDigit_iff_mem] at hc
      simp only [List.mem_cons, List.not_mem_nil, or_false] at hc
      rcases hc with rfl | rfl | rfl | rfl | rfl | rfl | rfl | rfl | rfl | rfl <;>
        exact ⟨rfl, rfl, by decide⟩
  rw [Token.step, hplain.1, hplain.2.1, hread]
  simp only [Bool.false_eq_true, if_false, if_neg hplain.2.2, Option.map_some]

/-! ## Integers -/

/-- The literal of an integer. -/
def ofInt (n : Int) : Literal := ⟨n < 0, Nat.toDigits 10 n.natAbs, none, none⟩

@[simp]
theorem text_ofInt (n : Int) : (ofInt n).text = integerText n := by
  simp [text, body, ofInt, fractionText, exponentText, integerText]

theorem unpadded_toDigits (n : Nat) :
    Nat.toDigits 10 n = ['0'] ∨ (Nat.toDigits 10 n).head? ≠ some '0' := by
  rcases Nat.eq_zero_or_pos n with rfl | hn
  · exact .inl rfl
  · exact .inr (head?_toDigits hn)

theorem wellFormed_ofInt (n : Int) : (ofInt n).WellFormed :=
  ⟨isDigits_toDigits _, unpadded_toDigits _, nofun, nofun⟩

/-- Integers between `-2 ^ 63` and `2 ^ 64` are read exactly. -/
theorem value_ofInt {n : Int} (hlow : -0x8000000000000000 ≤ n) (hhigh : n < 0x10000000000000000) :
    (ofInt n).value = .integer n := by
  unfold value
  simp only [ofInt, digitsValue_toDigits, Option.isNone_none, true_and]
  rw [if_pos (by omega)]
  rcases Int.lt_or_le n 0 with hneg | hpos
  · rw [decide_eq_true hneg]
    simp only [Bool.not_true, Bool.false_eq_true, if_false]
    rw [if_pos (by omega), show -((n.natAbs : Nat) : Int) = n by omega]
  · rw [decide_eq_false (by omega)]
    simp only [Bool.not_false, if_true]
    rw [show ((n.natAbs : Nat) : Int) = n by omega]

/-! ## Floating numbers -/

/-- The literal of some digits, with the point before, inside or behind them. -/
def ofPositional (negative : Bool) (d : Digits) : Literal :=
  if d.point ≤ 0 then
    ⟨negative, ['0'], some (List.replicate (-d.point).toNat '0' ++ d.digits), none⟩
  else if d.digits.length ≤ d.point.toNat then
    ⟨negative, d.digits ++ List.replicate (d.point.toNat - d.digits.length) '0', some ['0'], none⟩
  else ⟨negative, d.digits.take d.point.toNat, some (d.digits.drop d.point.toNat), none⟩

/-- The literal with one digit before the point and an exponent. -/
def ofScientific (negative : Bool) (d : Digits) : Literal where
  negative := negative
  whole := d.digits.take 1
  fraction := if d.digits.length ≤ 1 then none else some (d.digits.drop 1)
  exponent := some (d.point - 1 < 0, Nat.toDigits 10 (d.point - 1).natAbs)

/-- The literal of a finite number. -/
def ofMagnitude (negative : Bool) (x : Magnitude) : Literal :=
  if x = .zero then ⟨negative, ['0'], some ['0'], none⟩
  else
    let d := x.shortest number.tie
    if number.isPositional (d.point - 1) then ofPositional negative d else ofScientific negative d

variable {negative : Bool} {d : Digits} {x : Magnitude}

theorem text_ofPositional :
    (ofPositional negative d).text = (if negative then ['-'] else []) ++ number.positional d := by
  unfold ofPositional Layout.positional
  split
  · simp [text, body, fractionText, exponentText]
  · split
    · simp [text, body, fractionText, exponentText, number]
    · simp [text, body, fractionText, exponentText]

theorem text_ofScientific :
    (ofScientific negative d).text = (if negative then ['-'] else []) ++ number.scientific d := by
  unfold ofScientific Layout.scientific
  rcases hd : d.digits with _ | ⟨first, _ | ⟨second, rest⟩⟩ <;>
    by_cases hneg : d.point - 1 < 0 <;>
    simp [text, body, fractionText, exponentText, number, hneg]

/-- A finite number is written as its literal. -/
theorem text_ofMagnitude (hx : x.isFinite) :
    (ofMagnitude negative x).text = numberText (.signed negative x) := by
  have hrender : numberText (.signed negative x) =
      (if negative then ['-'] else []) ++ number.magnitude x :=
    if_pos (show Binary64.isFinite (.signed negative x) = true from hx)
  rw [hrender]
  by_cases hzero : x = .zero
  · have hmagnitude : number.magnitude x = ['0', '.', '0'] := by
      rw [Layout.magnitude, if_pos hzero]
      rfl
    rw [hmagnitude, ofMagnitude, if_pos hzero]
    rfl
  · rw [Layout.magnitude, if_neg hzero, if_pos hx, ofMagnitude, if_neg hzero]
    simp only
    split
    · exact text_ofPositional
    · exact text_ofScientific

theorem wellFormed_ofPositional (hd : Magnitude.Leads d.digits) :
    (ofPositional negative d).WellFormed := by
  have hdigits : IsDigits d.digits := hd.toIsDigits
  have hzero : IsDigits ['0'] := IsDigits.zeros (n := 1) (by decide)
  unfold ofPositional
  split
  · refine ⟨hzero, .inl rfl, ?_, nofun⟩
    rintro _ ⟨⟩
    exact hdigits.zeros_append _
  · rename_i hpoint
    split
    · refine ⟨hdigits.append fun c hc => ?_, .inr ?_, ?_, nofun⟩
      · rw [List.eq_of_mem_replicate hc]
        rfl
      · rw [List.head?_append_of_ne_nil _ hdigits.ne_nil]
        exact hd.head?_ne
      · rintro _ ⟨⟩
        exact hzero
    · rename_i hlength
      obtain ⟨hwhole, hfraction⟩ := hdigits.split (n := d.point.toNat) (by omega) (by omega)
      refine ⟨hwhole, .inr ?_, ?_, nofun⟩
      · have hhead := hd.head?_ne
        rwa [← List.take_append_drop d.point.toNat d.digits,
          List.head?_append_of_ne_nil _ hwhole.ne_nil] at hhead
      · rintro _ ⟨⟩
        exact hfraction

theorem wellFormed_ofScientific (hd : Magnitude.Leads d.digits) :
    (ofScientific negative d).WellFormed := by
  have hdigits : IsDigits d.digits := hd.toIsDigits
  obtain ⟨first, rest, hcons⟩ := List.exists_cons_of_ne_nil hdigits.ne_nil
  refine ⟨hdigits.of_sublist (List.take_sublist 1 _) (by simp [ofScientific, hcons]), .inr ?_,
    ?_, ?_⟩
  · have hne := hd.head?_ne
    simpa [ofScientific, hcons] using hne
  · intro digits hmem
    simp only [ofScientific] at hmem
    split at hmem
    · cases hmem
    · cases hmem
      refine hdigits.of_sublist (List.drop_sublist _ _) ?_
      rw [Ne, List.drop_eq_nil_iff]
      assumption
  · rintro _ ⟨⟩
    exact isDigits_toDigits _

/-- The literal of a number is that of zero, or is laid out from digits that do not begin with a
zero. -/
theorem ofMagnitude_cases (negative : Bool) (x : Magnitude) :
    ofMagnitude negative x = ⟨negative, ['0'], some ['0'], none⟩ ∨
      ∃ d : Digits, Magnitude.Leads d.digits ∧
        (ofMagnitude negative x = ofPositional negative d ∨
          ofMagnitude negative x = ofScientific negative d) := by
  by_cases hzero : x = .zero
  · exact .inl (if_pos hzero)
  · refine .inr ⟨x.shortest number.tie, Magnitude.leads_shortest hzero _, ?_⟩
    rw [ofMagnitude, if_neg hzero]
    simp only
    split
    · exact .inl rfl
    · exact .inr rfl

theorem wellFormed_ofMagnitude : (ofMagnitude negative x).WellFormed := by
  rcases ofMagnitude_cases negative x with h | ⟨d, hd, h | h⟩ <;> rw [h]
  · have hzero : IsDigits ['0'] := IsDigits.zeros (n := 1) (by decide)
    refine ⟨hzero, .inl rfl, ?_, nofun⟩
    rintro _ ⟨⟩
    exact hzero
  · exact wellFormed_ofPositional hd
  · exact wellFormed_ofScientific hd

/-- The literal of a floating number shows a point or an exponent. -/
theorem isFractional_ofMagnitude (negative : Bool) (x : Magnitude) :
    (ofMagnitude negative x).fraction.isSome ∨ (ofMagnitude negative x).exponent.isSome := by
  rcases ofMagnitude_cases negative x with h | ⟨d, -, h | h⟩ <;> rw [h]
  · exact .inl rfl
  · left
    unfold ofPositional
    split
    · rfl
    · split <;> rfl
  · exact .inr rfl

/-- A literal with a point or an exponent denotes a floating number, if it is readable at all. -/
theorem value_of_isFractional (h : l.fraction.isSome ∨ l.exponent.isSome) :
    l.value = .unreadable ∨ ∃ x, l.value = .float x := by
  have hfractional : ¬(l.fraction.isNone ∧ l.exponent.isNone ∧
      digitsValue l.whole < 0x10000000000000000) := by
    rintro ⟨hf, he, -⟩
    rcases h with h | h
    · rw [Option.isNone_iff_eq_none.mp hf] at h
      cases h
    · rw [Option.isNone_iff_eq_none.mp he] at h
      cases h
  unfold value
  simp only [if_neg hfractional]
  split
  · exact .inr ⟨_, rfl⟩
  · exact .inl rfl

end Literal

end RemoteConfig.Json
