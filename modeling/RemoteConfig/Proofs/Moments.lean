import RemoteConfig.Proofs.Calendar
import RemoteConfig.Proofs.Digits
import RemoteConfig.Time.Timestamp
/-! # Moments and their texts

The text of a moment is read back as the moment: each part is written with as many digits as the
reader takes, no part is mistaken for a sign or a mark, and the date and clock make up the seconds
again. -/

namespace RemoteConfig.Timestamp

open Decimal

/-- A moment in the years that are represented, within a second. -/
structure Proper (t : Timestamp) : Prop where
  nanos_lt : t.nanos < 1000000000
  isYearInRange : isYearInRange (Date.ofDays (t.seconds / 86400)).year = true

/-! ## Digits of a given width -/

theorem isDigits_padded (width n : Nat) : IsDigits (padded width n) :=
  (isDigits_toDigits n).zeros_append _

theorem length_padded {width n : Nat} (hwidth : 0 < width) (hn : n < Nat.pow 10 width) :
    (padded width n).length = width := by
  have hlength : (Nat.toDigits 10 n).length ≤ width :=
    (Nat.length_toDigits_le_iff (by decide) hwidth).mpr hn
  simp only [padded, List.length_append, List.length_replicate]
  omega

theorem digitsValue_padded (width n : Nat) : digitsValue (padded width n) = n := by
  rw [padded, digitsValue_zeros_append, digitsValue_toDigits]

theorem isBlank_digit {c : Char} (hc : c.isDigit = true) : Text.isBlank c = false := by
  rw [isDigit_iff_mem] at hc
  simp only [List.mem_cons, List.not_mem_nil, or_false] at hc
  rcases hc with rfl | rfl | rfl | rfl | rfl | rfl | rfl | rfl | rfl | rfl <;> rfl

theorem trimStart_cons {c : Char} (h : Text.isBlank c = false) (rest : List Char) :
    Text.trimStart (c :: rest) = c :: rest :=
  List.dropWhile_cons_of_neg (by simp [h])

/-- No blank stands before a digit. -/
theorem trimStart_digits {ds : List Char} (hd : IsDigits ds) (rest : List Char) :
    Text.trimStart (ds ++ rest) = ds ++ rest := by
  obtain ⟨c, tail, rfl⟩ := List.exists_cons_of_ne_nil hd.ne_nil
  exact trimStart_cons (isBlank_digit (hd.all c (List.mem_cons_self ..))) (tail ++ rest)

/-- Digits of the full width are read as the number they were written for. -/
theorem readDigits_padded {width n : Nat} (hwidth : 0 < width) (hn : n < Nat.pow 10 width)
    (rest : List Char) : readDigits width (padded width n ++ rest) = some (n, rest) := by
  have hdigits := isDigits_padded width n
  have hlength := length_padded hwidth hn
  have htake : (padded width n ++ rest).take width = padded width n := List.take_left' hlength
  have hall : (padded width n).takeWhile Char.isDigit = padded width n :=
    List.takeWhile_eq_self_iff.mpr hdigits.all
  unfold readDigits
  simp only [trimStart_digits hdigits, htake, hall]
  rw [if_neg (by simp [hdigits.ne_nil]), digitsValue_padded, List.drop_left]

/-! ## Parts -/

/-- A mark between two numbers. -/
theorem skipMark_cons {mark : Char} (h : Text.isBlank mark = false) (rest : List Char) :
    skipMark mark (mark :: rest) = some rest := by
  rw [skipMark, trimStart_cons h]
  simp

/-- A year without a sign is what its digits say. -/
theorem readYear_digits {ds : List Char} (hd : IsDigits ds) (rest : List Char) :
    readYear (ds ++ rest) =
      (readDigits 4 (ds ++ rest)).map fun (n, after) => ((n : Int), after) := by
  obtain ⟨c, tail, hcons⟩ := List.exists_cons_of_ne_nil hd.ne_nil
  have hdigit := (isDigit_iff_mem c).mp (hd.all c (by simp [hcons]))
  unfold readYear
  simp only [trimStart_digits hd]
  rw [hcons, List.cons_append]
  -- no sign is a digit
  split
  iterate 2
    · rename_i heq
      injection heq with hsign
      rw [hsign] at hdigit
      exact absurd hdigit (by decide)
  · rfl

/-- A year with a sign has all the digits behind it. -/
theorem readYear_signed (negative : Bool) (n : Nat) (rest : List Char) :
    readYear ((if negative then '-' else '+') :: (padded 4 n ++ '-' :: rest)) =
      some (applySign negative n, '-' :: rest) := by
  have hdigits := isDigits_padded 4 n
  have hsplit := hdigits.splitDigits_append (show NoDigit ('-' :: rest) from noDigit_cons rfl)
  have hsome : (padded 4 n).isEmpty = false := by simp [hdigits.ne_nil]
  have hminus := trimStart_cons (show Text.isBlank '-' = false by decide)
  have hplus := trimStart_cons (show Text.isBlank '+' = false by decide)
  unfold readYear
  cases negative <;>
    simp only [Bool.false_eq_true, if_true, if_false, hminus, hplus, hsplit, hsome,
      digitsValue_padded]

/-- A year is read up to the mark behind it. -/
theorem readYear_yearText (year : Int) (rest : List Char) :
    readYear (yearText year ++ '-' :: rest) = some (year, '-' :: rest) := by
  unfold yearText
  by_cases hfour : 0 ≤ year ∧ year ≤ 9999
  · have hwidth : year.toNat < Nat.pow 10 4 := by
      show year.toNat < 10000
      omega
    rw [if_pos hfour, readYear_digits (isDigits_padded 4 year.toNat),
      readDigits_padded (by decide) hwidth]
    simp only [Option.map_some, Int.toNat_of_nonneg hfour.1]
  · have hsigned := readYear_signed (decide (year < 0)) year.natAbs rest
    have hvalue : applySign (decide (year < 0)) year.natAbs = year := by
      simp only [applySign, decide_eq_true_eq]
      split <;> omega
    simp only [decide_eq_true_eq] at hsigned
    rw [if_neg hfour, List.cons_append, hsigned, hvalue]

/-- Groups of three fraction digits, filled up with zeros to nine. -/
theorem readFraction_padded {groups n : Nat} (hlow : 0 < groups) (hhigh : groups ≤ 9)
    (hn : n < Nat.pow 10 groups) :
    readFraction ('.' :: padded groups n ++ ['Z']) = some (Nat.pow 10 (9 - groups) * n, ['Z']) := by
  have hdigits := isDigits_padded groups n
  have hlength := length_padded hlow hn
  have hsplit := hdigits.splitDigits_append (show NoDigit ['Z'] from noDigit_cons rfl)
  have hsome : (padded groups n).isEmpty = false := by simp [hdigits.ne_nil]
  have hkept : (padded groups n).take 9 = padded groups n :=
    List.take_of_length_le (by omega)
  rw [List.cons_append, readFraction]
  simp only [hsplit, hsome, Bool.false_eq_true, if_false, hkept, hlength, digitsValue_append_zeros,
    digitsValue_padded]

theorem readFraction_fractionText {nanos : Nat} (h : nanos < 1000000000) :
    readFraction (fractionText nanos ++ ['Z']) = some (nanos, ['Z']) := by
  unfold fractionText
  split
  · rename_i hzero
    rw [hzero]
    rfl
  · split
    · rename_i hmillis
      have hback : 1000000 * (nanos / 1000000) = nanos := by omega
      rw [readFraction_padded (by decide) (by decide) (by show _ < 1000; omega)]
      exact congrArg (fun n => some (n, ['Z'])) hback
    · split
      · rename_i hmicros
        have hback : 1000 * (nanos / 1000) = nanos := by omega
        rw [readFraction_padded (by decide) (by decide) (by show _ < 1000000; omega)]
        exact congrArg (fun n => some (n, ['Z'])) hback
      · rw [readFraction_padded (by decide) (by decide) h]
        exact congrArg (fun n => some (n, ['Z'])) (Nat.one_mul nanos)

/-- The date and the clock make up the seconds. -/
theorem ofClock?_ofDays {t : Timestamp} (h : t.Proper) :
    ofClock? (Date.ofDays (t.seconds / 86400)) ((t.seconds % 86400).toNat / 3600)
      ((t.seconds % 86400).toNat / 60 % 60) ((t.seconds % 86400).toNat % 60) t.nanos 0 =
        some t := by
  have hnoleap : ¬(t.seconds % 86400).toNat % 60 = 60 := by omega
  have hseconds : (Date.ofDays (t.seconds / 86400)).toDays * 86400 +
      (((t.seconds % 86400).toNat / 3600 : Nat) : Int) * 3600 +
      (((t.seconds % 86400).toNat / 60 % 60 : Nat) : Int) * 60 +
      (((t.seconds % 86400).toNat % 60 : Nat) : Int) - 0 = t.seconds := by
    rw [Date.toDays_ofDays]
    omega
  unfold ofClock?
  simp only [hnoleap, if_false, hseconds]
  rw [if_pos, Nat.add_zero]
  simp only [Date.isValid_ofDays, h.isYearInRange, Bool.and_eq_true, decide_eq_true_eq, and_true,
    true_and]
  omega

/-- The text of a moment is read back as the moment. -/
theorem parse?_toText {t : Timestamp} (h : t.Proper) : parse? t.toText = some t := by
  have hvalid := Date.isValid_ofDays (t.seconds / 86400)
  have hleap : ¬1000000000 ≤ t.nanos := Nat.not_le.mpr h.nanos_lt
  have htwo : ∀ n, n < 100 → ∀ rest, readDigits 2 (padded 2 n ++ rest) = some (n, rest) :=
    fun n hn rest => readDigits_padded (by decide) hn rest
  have hmonth := htwo (Date.ofDays (t.seconds / 86400)).month
    (Nat.lt_of_le_of_lt (Date.month_le_of_isValid hvalid) (by decide))
  have hday := htwo (Date.ofDays (t.seconds / 86400)).day
    (Nat.lt_of_le_of_lt (Date.day_le_of_isValid hvalid) (by decide))
  have hhour := htwo ((t.seconds % 86400).toNat / 3600) (by omega)
  have hminute := htwo ((t.seconds % 86400).toNat / 60 % 60) (by omega)
  have hsecond := htwo ((t.seconds % 86400).toNat % 60) (by omega)
  have hdash := skipMark_cons (show Text.isBlank '-' = false by decide)
  have hcolon := skipMark_cons (show Text.isBlank ':' = false by decide)
  have htext : t.toText.toList = yearText (Date.ofDays (t.seconds / 86400)).year ++ '-' ::
      (padded 2 (Date.ofDays (t.seconds / 86400)).month ++ '-' ::
      (padded 2 (Date.ofDays (t.seconds / 86400)).day ++ 'T' ::
      (padded 2 ((t.seconds % 86400).toNat / 3600) ++ ':' ::
      (padded 2 ((t.seconds % 86400).toNat / 60 % 60) ++ ':' ::
      (padded 2 ((t.seconds % 86400).toNat % 60) ++ (fractionText t.nanos ++ ['Z'])))))) := by
    simp [toText, text, hleap]
  rw [parse?, htext, readYear_yearText]
  simp only [Option.bind_eq_bind, Option.bind_some, hdash, hcolon, hmonth, hday, hhour, hminute,
    hsecond, readFraction_fractionText h.nanos_lt]
  exact ofClock?_ofDays h

end RemoteConfig.Timestamp
