import Mathlib.Tactic.Ring
import RemoteConfig.Proofs.Rounding
import RemoteConfig.Rule.Printer
/-! # Numerals

In the text form of rules every finite floating number is a numeral: an optional minus, digits, a
point, and digits.  The numeral is read back as the very same number. -/

namespace RemoteConfig

namespace Decimal

/-- A text behind an optional minus. -/
def signed (negative : Bool) (cs : List Char) : List Char := (if negative then ['-'] else []) ++ cs

/-- The text of a numeral. -/
def numeral (negative : Bool) (whole fraction : List Char) : List Char :=
  signed negative (whole ++ '.' :: fraction)

section Reading

variable {whole fraction : List Char} (hwhole : IsDigits whole)
include hwhole

theorem splitSign_signed (negative : Bool) (rest : List Char) :
    splitSign (signed negative (whole ++ rest)) = (negative, whole ++ rest) := by
  obtain ⟨c, more, rfl⟩ := List.exists_cons_of_ne_nil hwhole.ne_nil
  have hc := (isDigit_iff_mem c).mp (hwhole.all c (List.mem_cons_self ..))
  cases negative with
  | true => rfl
  | false =>
      simp only [signed, Bool.false_eq_true, if_false, List.nil_append, List.cons_append]
      unfold splitSign
      split
      · simp_all
      · simp_all
      · rfl

/-- The point keeps a numeral from being read as an integer. -/
theorem readInteger_numeral (negative : Bool) :
    readInteger (numeral negative whole fraction) = none := by
  rw [readInteger, numeral, splitSign_signed hwhole]
  simp

theorem readNumber_numeral (hfraction : IsDigits fraction) (negative : Bool) :
    readNumber (numeral negative whole fraction) =
      some (.ofDecimal negative (digitsValue (whole ++ fraction)) (-(fraction.length : Int))) := by
  have hsplit : splitDigits (whole ++ '.' :: fraction) = (whole, '.' :: fraction) :=
    hwhole.splitDigits_append (noDigit_cons rfl)
  have hrest : splitDigits fraction = (fraction, []) := by
    have hend : NoDigit [] := nofun
    simpa using hfraction.splitDigits_append hend
  have hlower : ['0', '1', '2', '3', '4', '5', '6', '7', '8', '9'].all
      fun d => d.toLower ≠ 'i' ∧ d.toLower ≠ 'n' := by decide
  obtain ⟨c, tail, hcons⟩ := List.exists_cons_of_ne_nil hwhole.ne_nil
  have hc : c.toLower ≠ 'i' ∧ c.toLower ≠ 'n' := of_decide_eq_true
    (List.all_eq_true.mp hlower c ((isDigit_iff_mem c).mp (hwhole.all c (by simp [hcons]))))
  have hword : ∀ w : List Char, w.head? = some 'i' ∨ w.head? = some 'n' →
      (whole ++ '.' :: fraction).map Char.toLower ≠ w := by
    rintro w hw rfl
    simp [hcons, hc.1, hc.2] at hw
  rw [readNumber, numeral, splitSign_signed hwhole]
  simp only [hsplit, splitFraction, hrest, readExponent]
  rw [if_neg (not_or.mpr ⟨hword _ (.inl rfl), hword _ (.inl rfl)⟩), if_neg (hword _ (.inr rfl))]
  simp [hwhole.ne_nil]

end Reading

end Decimal

namespace Magnitude

open Decimal

/-- The decimal of a coefficient that is long enough is computed exactly. -/
theorem ofDecimal_of_fraction {v f : Nat} (hv : v ≠ 0) (hf : 0 < f)
    (hlength : f ≤ (Nat.toDigits 10 v).length + 401) :
    ofDecimal v (-(f : Int)) = ofRatio v (Nat.pow 10 f) := by
  obtain ⟨e, rfl⟩ := Nat.exists_eq_add_one_of_ne_zero (Nat.pos_iff_ne_zero.mp hf)
  have hexponent : -((e + 1 : Nat) : Int) = Int.negSucc e := rfl
  unfold ofDecimal
  rw [if_neg hv, hexponent]
  exact if_neg (by omega)

/-- A coefficient without the zeros at its end. -/
theorem stripZeros_spec (coefficient : Nat) (exponent : Int) : ∃ k,
    let d := stripZeros coefficient exponent
    coefficient = Nat.pow 10 k * digitsValue d.digits ∧
      d.point = exponent + d.digits.length + k ∧
      (Nat.toDigits 10 coefficient).length = d.digits.length + k := by
  generalize hall : Nat.toDigits 10 coefficient = all
  have hzeros : all.reverse.takeWhile (· == '0') =
      List.replicate (all.reverse.takeWhile (· == '0')).length '0' :=
    List.eq_replicate_of_mem fun c hc =>
      eq_of_beq (List.mem_takeWhile_imp (p := (· == '0')) hc)
  generalize (all.reverse.takeWhile (· == '0')).length = k at hzeros
  have hkept : all = (all.reverse.dropWhile (· == '0')).reverse ++ List.replicate k '0' := by
    rw [← List.reverse_replicate, ← hzeros, ← List.reverse_append, List.takeWhile_append_dropWhile,
      List.reverse_reverse]
  have hlength := congrArg List.length hkept
  rw [List.length_append, List.length_replicate] at hlength
  refine ⟨k, ?_, ?_, ?_⟩
  · simp only [stripZeros, hall]
    rw [← digitsValue_append_zeros, ← hkept, ← hall, digitsValue_toDigits]
  · simp only [stripZeros, hall]
    omega
  · simp only [stripZeros, hall]
    exact hlength

/-- A decimal with a fraction covers the same as the decimal that was stripped of zeros. -/
theorem covers_of_isIdentifiedBy {x : Magnitude} {coefficient k v f : Nat} {exponent : Int}
    (h : x.isIdentifiedBy coefficient exponent = true) (hv : coefficient = Nat.pow 10 k * v)
    (hf : (f : Int) = -(exponent + k)) : x.Covers (v * unitsPerOne) (Nat.pow 10 f) := by
  refine (covers_congr ?_ (zero_lt_pow (by decide) _) (zero_lt_pow (by decide) _) x).mp
    (isIdentifiedBy_iff.mp h)
  have hpow : Nat.pow 10 (-exponent).toNat =
      Nat.pow 10 k * (Nat.pow 10 exponent.toNat * Nat.pow 10 f) := by
    rw [show (-exponent).toNat = k + (exponent.toNat + f) by omega]
    exact (Nat.pow_add ..).trans (congrArg _ (Nat.pow_add ..))
  rw [hv, hpow]
  generalize unitsPerOne = units
  ring

theorem units_zero : zero.units = 0 := Nat.zero_mul _

theorem unitsPerOne_pos : 0 < unitsPerOne := by
  obtain ⟨one, -, hunits⟩ := unitsPerOne_eq
  rw [hunits]
  exact two_pow_pos one

/-- Multiples that are at most half a step too large are not too large. -/
theorem le_of_mul_near {m n step : Nat} (hstep : 0 < step)
    (h : 2 * (m * step) ≤ 2 * (n * step) + step) : m ≤ n := by
  by_contra hlt
  have hmul : (n + 1) * step ≤ m * step := Nat.mul_le_mul_right step (by omega)
  rw [Nat.succ_mul] at hmul
  omega

/-- A magnitude that covers a whole number is one. -/
theorem dvd_units_of_covers {x : Magnitude} {n : Nat} (h : x.Covers (n * unitsPerOne) 1) :
    unitsPerOne ∣ x.units := by
  obtain ⟨one, -, hunits⟩ := unitsPerOne_eq
  obtain ⟨hlow, hhigh, -⟩ := h.halfStep (Nat.one_mul _).symm
  rw [hunits] at hlow hhigh ⊢
  unfold units
  rcases Nat.le_total one x.scale with hle | hle
  · exact Nat.dvd_mul_left_of_dvd (Nat.pow_dvd_pow 2 hle) _
  · -- the number is a whole number of steps, at most half a step away
    obtain ⟨more, rfl⟩ := Nat.exists_eq_add_of_le hle
    have hsteps : n * Nat.pow 2 (x.scale + more) = n * Nat.pow 2 more * Nat.pow 2 x.scale := by
      rw [two_pow_add, Nat.mul_comm (Nat.pow 2 x.scale), Nat.mul_assoc]
    rw [hsteps] at hlow hhigh
    have hstep := two_pow_pos x.scale
    have hsame : x.significand = n * Nat.pow 2 more :=
      Nat.le_antisymm (le_of_mul_near hstep hlow) (le_of_mul_near hstep hhigh)
    rw [hsame, ← hsteps]
    exact Nat.dvd_mul_left ..

/-- A decimal with no fraction identifies whole numbers only. -/
theorem dvd_units_of_isIdentifiedBy {x : Magnitude} {coefficient k v : Nat} {exponent : Int}
    (h : x.isIdentifiedBy coefficient exponent = true) (hv : coefficient = Nat.pow 10 k * v)
    (hwhole : 0 ≤ exponent + k) : unitsPerOne ∣ x.units := by
  refine dvd_units_of_covers (n := v * Nat.pow 10 (exponent + k).toNat)
    ((covers_congr ?_ (zero_lt_pow (by decide) _) Nat.one_pos x).mp (isIdentifiedBy_iff.mp h))
  have hpow : Nat.pow 10 k * Nat.pow 10 exponent.toNat =
      Nat.pow 10 (exponent + k).toNat * Nat.pow 10 (-exponent).toNat := by
    refine (Nat.pow_add ..).symm.trans (Eq.trans ?_ (Nat.pow_add ..))
    rw [show k + exponent.toNat = (exponent + k).toNat + (-exponent).toNat by omega]
  rw [hv, Nat.mul_one]
  generalize unitsPerOne = units
  calc Nat.pow 10 k * v * Nat.pow 10 exponent.toNat * units
      = v * (Nat.pow 10 k * Nat.pow 10 exponent.toNat) * units := by ring
    _ = v * (Nat.pow 10 (exponent + k).toNat * Nat.pow 10 (-exponent).toNat) * units := by rw [hpow]
    _ = v * Nat.pow 10 (exponent + k).toNat * units * Nat.pow 10 (-exponent).toNat := by ring

/-- What is denoted by the digits of a decimal that identifies the magnitude. -/
theorem ofDecimal_of_isIdentifiedBy {x : Magnitude} (hx : x ≠ zero) {coefficient k v f : Nat}
    {exponent : Int} (h : x.isIdentifiedBy coefficient exponent = true)
    (hlength : -((Nat.toDigits 10 coefficient).length + 401 : Int) ≤ exponent)
    (hv : coefficient = Nat.pow 10 k * v) (hpos : 0 < f) (hf : (f : Int) = -(exponent + k)) :
    ofDecimal v (-(f : Int)) = x := by
  have hne : v ≠ 0 := by
    rintro rfl
    rw [hv, Nat.mul_zero, not_isIdentifiedBy_zero hx] at h
    cases h
  have hdigits : (Nat.toDigits 10 coefficient).length ≤ (Nat.toDigits 10 v).length + k := by
    have hlt := (length_toDigits_le v Nat.length_toDigits_pos).mp (Nat.le_refl _)
    have hsome : 0 < (Nat.toDigits 10 v).length := Nat.length_toDigits_pos
    rw [length_toDigits_le _ (by omega), hv, Nat.add_comm]
    calc Nat.pow 10 k * v < Nat.pow 10 k * Nat.pow 10 (Nat.toDigits 10 v).length :=
          Nat.mul_lt_mul_of_pos_left hlt (zero_lt_pow (by decide) k)
      _ = Nat.pow 10 (k + (Nat.toDigits 10 v).length) := (Nat.pow_add ..).symm
  rw [ofDecimal_of_fraction hne hpos (by omega)]
  exact (covers_of_isIdentifiedBy h hv hf).ofUnits_eq (zero_lt_pow (by decide) f)

/-! ## The numeral of a magnitude -/

/-- Digits with the point before or inside them. -/
theorem exists_positional (layout : Layout) {d : Digits} (hd : Leads d.digits)
    (hpoint : ¬(0 < d.point ∧ d.digits.length ≤ d.point.toNat)) :
    ∃ whole fraction, layout.positional d = whole ++ '.' :: fraction ∧ IsDigits whole ∧
      IsDigits fraction ∧ digitsValue (whole ++ fraction) = digitsValue d.digits ∧
      (fraction.length : Int) = d.digits.length - d.point := by
  have hdigits : IsDigits d.digits := hd.toIsDigits
  unfold Layout.positional
  split
  · refine ⟨['0'], List.replicate (-d.point).toNat '0' ++ d.digits, rfl,
      IsDigits.zeros (n := 1) (by decide), hdigits.zeros_append _, ?_, ?_⟩
    · exact digitsValue_zeros_append ((-d.point).toNat + 1) d.digits
    · rw [List.length_append, List.length_replicate]
      omega
  · rw [if_neg (by omega)]
    obtain ⟨hwhole, hfraction⟩ := hdigits.split (n := d.point.toNat) (by omega) (by omega)
    refine ⟨d.digits.take d.point.toNat, d.digits.drop d.point.toNat, by simp, hwhole, hfraction,
      ?_, ?_⟩
    · rw [List.take_append_drop]
    · rw [List.length_drop]
      omega

/-- A magnitude that is no whole number is written with a fraction. -/
theorem exists_numeral_of_fractional {x : Magnitude} (hfinite : x.isFinite = true)
    (hx : ¬ unitsPerOne ∣ x.units) : ∃ whole fraction,
    Binary64.plain.magnitude x = whole ++ '.' :: fraction ∧ IsDigits whole ∧ IsDigits fraction ∧
      ofDecimal (digitsValue (whole ++ fraction)) (-(fraction.length : Int)) = x := by
  have hne : x ≠ zero := by
    rintro rfl
    rw [units_zero] at hx
    exact hx (Nat.dvd_zero _)
  obtain ⟨coefficient, exponent, hshortest, hidentified, hlength⟩ := exists_shortest hne .upward
  obtain ⟨k, hcoefficient, hpoint, -⟩ := stripZeros_spec coefficient exponent
  rw [← hshortest] at hcoefficient hpoint
  -- behind the digits the point would make a whole number
  have hinside : ¬(0 < (x.shortest .upward).point ∧
      (x.shortest .upward).digits.length ≤ (x.shortest .upward).point.toNat) := fun hbehind =>
    hx (dvd_units_of_isIdentifiedBy hidentified hcoefficient (by omega))
  obtain ⟨whole, fraction, htext, hwhole, hfraction, hvalue, hfractionLength⟩ :=
    exists_positional Binary64.plain (leads_shortest hne .upward) hinside
  refine ⟨whole, fraction, ?_, hwhole, hfraction, ?_⟩
  · rw [Layout.magnitude, if_neg hne, if_pos hfinite]
    exact (if_pos rfl).trans htext
  · rw [hvalue]
    exact ofDecimal_of_isIdentifiedBy hne hidentified hlength hcoefficient
      (List.length_pos_iff.mpr hfraction.ne_nil) (by omega)

/-- A whole number is written with all its digits, a point and a zero. -/
theorem ofDecimal_of_whole {x : Magnitude} (hx : unitsPerOne ∣ x.units) :
    ofDecimal (digitsValue (Nat.toDigits 10 (x.units / unitsPerOne) ++ ['0'])) (-1) = x := by
  have hvalue : digitsValue (Nat.toDigits 10 (x.units / unitsPerOne) ++ ['0']) =
      10 * (x.units / unitsPerOne) := by
    have hzero := digitsValue_append_zeros (Nat.toDigits 10 (x.units / unitsPerOne)) 1
    rwa [digitsValue_toDigits] at hzero
  rw [hvalue]
  by_cases hne : x = zero
  · rw [hne, units_zero, Nat.zero_div]
    rfl
  · have hpos : 0 < x.units / unitsPerOne :=
      Nat.div_pos (Nat.le_of_dvd (zero_lt_units hne) hx) unitsPerOne_pos
    have hcovers : x.Covers (10 * (x.units / unitsPerOne) * unitsPerOne) (Nat.pow 10 1) := by
      refine (covers_congr ?_ Nat.one_pos (zero_lt_pow (by decide) 1) x).mp (covers_units hne)
      rw [Nat.mul_one, Nat.mul_assoc, Nat.div_mul_cancel hx, Nat.mul_comm]
    exact (ofDecimal_of_fraction (f := 1) (by omega) Nat.one_pos (by omega)).trans
      (hcovers.ofUnits_eq (zero_lt_pow (by decide) 1))

end Magnitude

namespace Scalar

open Decimal

/-- Every finite floating number is written as a numeral that denotes it. -/
theorem exists_numeral {x : Binary64} (hx : x.isFinite = true) : ∃ negative whole fraction,
    (float x).source = numeral negative whole fraction ∧ IsDigits whole ∧ IsDigits fraction ∧
      .ofDecimal negative (digitsValue (whole ++ fraction)) (-(fraction.length : Int)) = x := by
  cases x with
  | nan => cases hx
  | signed negative x =>
      by_cases hwhole : Magnitude.unitsPerOne ∣ x.units
      · refine ⟨negative, Nat.toDigits 10 (x.units / Magnitude.unitsPerOne), ['0'], ?_,
          isDigits_toDigits _, IsDigits.zeros (n := 1) (by decide),
          congrArg _ (Magnitude.ofDecimal_of_whole hwhole)⟩
        have hiswhole : (Binary64.signed negative x).isWhole = true := by
          rw [Binary64.isWhole, Nat.mod_eq_zero_of_dvd hwhole]
          simpa [Binary64.isFinite] using hx
        rw [source, if_pos hiswhole, numeral, signed, Binary64.wholeText, List.append_assoc]
      · obtain ⟨whole, fraction, htext, hw, hf, hvalue⟩ :=
          Magnitude.exists_numeral_of_fractional hx hwhole
        refine ⟨negative, whole, fraction, ?_, hw, hf, congrArg _ hvalue⟩
        have hiswhole : ¬ (Binary64.signed negative x).isWhole = true := by
          rw [Binary64.isWhole, Bool.and_eq_true, beq_iff_eq, not_and]
          exact fun _ hmod => hwhole (Nat.dvd_of_mod_eq_zero hmod)
        rw [source, if_neg hiswhole, numeral, signed, Layout.render, htext]

/-- The text of a finite floating number is read back as that number. -/
theorem readNumber_source {x : Binary64} (hx : x.isFinite = true) :
    readNumber (float x).source = some x := by
  obtain ⟨negative, whole, fraction, htext, hwhole, hfraction, hvalue⟩ := exists_numeral hx
  rw [htext, readNumber_numeral hwhole hfraction, hvalue]

end Scalar

end RemoteConfig
