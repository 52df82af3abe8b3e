import Mathlib.Data.List.DropRight
import RemoteConfig.Decimal.Reading
import RemoteConfig.Decimal.Layout
/-! # Digits

A row of digits is read back whole, and has the value it was written for, as long as no further
digit follows it.  The fewest digits that identify a number are such a row; it does not begin with a
zero. -/

namespace RemoteConfig

namespace Decimal

/-- A row of decimal digits, one at least. -/
structure IsDigits (ds : List Char) : Prop where
  ne_nil : ds ≠ []
  all : ∀ c ∈ ds, c.isDigit = true

/-- A text that does not begin with a digit. -/
def NoDigit (rest : List Char) : Prop := ∀ c ∈ rest.head?, c.isDigit = false

theorem noDigit_cons {c : Char} {rest : List Char} (h : c.isDigit = false) :
    NoDigit (c :: rest) := by
  rintro _ ⟨⟩
  exact h

theorem isDigit_iff_mem (c : Char) :
    c.isDigit = true ↔ c ∈ ['0', '1', '2', '3', '4', '5', '6', '7', '8', '9'] := by
  simp only [Char.isDigit, List.mem_cons, List.not_mem_nil, or_false, Char.ext_iff,
    Bool.and_eq_true, decide_eq_true_eq, ge_iff_le, UInt32.le_iff_toNat_le, ← UInt32.toNat_inj]
  simp only [Char.reduceVal, UInt32.reduceToNat]
  omega

/-- The characters of one kind in front of a text that begins with another kind. -/
theorem span_append {kind : Char → Bool} {cs rest : List Char} (hcs : ∀ c ∈ cs, kind c = true)
    (hrest : ∀ c ∈ rest.head?, kind c = false) :
    (cs ++ rest).takeWhile kind = cs ∧ (cs ++ rest).dropWhile kind = rest := by
  rw [List.takeWhile_append_of_pos hcs, List.dropWhile_append_of_pos hcs]
  cases rest with
  | nil => exact ⟨List.append_nil cs, rfl⟩
  | cons c rest =>
      have hc := hrest c rfl
      rw [List.takeWhile_cons_of_neg (by simp [hc]), List.dropWhile_cons_of_neg (by simp [hc]),
        List.append_nil]
      exact ⟨rfl, rfl⟩

/-! ## Rows of digits -/

theorem isDigits_toDigits (n : Nat) : IsDigits (Nat.toDigits 10 n) :=
  ⟨Nat.toDigits_ne_nil, fun _ => Nat.isDigit_of_mem_toDigits (by decide) (by decide)⟩

namespace IsDigits

variable {ds more : List Char}

theorem zeros {n : Nat} (hn : 0 < n) : IsDigits (List.replicate n '0') := by
  refine ⟨by simp [Nat.pos_iff_ne_zero.mp hn], fun c hc => ?_⟩
  rw [List.eq_of_mem_replicate hc]
  rfl

theorem append (hd : IsDigits ds) (hm : ∀ c ∈ more, c.isDigit = true) : IsDigits (ds ++ more) := by
  refine ⟨by simp [hd.ne_nil], fun c hc => ?_⟩
  rcases List.mem_append.mp hc with hc | hc
  · exact hd.all c hc
  · exact hm c hc

theorem zeros_append (hd : IsDigits ds) (n : Nat) : IsDigits (List.replicate n '0' ++ ds) := by
  refine ⟨by simp [hd.ne_nil], fun c hc => ?_⟩
  rcases List.mem_append.mp hc with hc | hc
  · rw [List.eq_of_mem_replicate hc]
    rfl
  · exact hd.all c hc

theorem of_sublist (hd : IsDigits ds) (hm : more.Sublist ds) (hne : more ≠ []) : IsDigits more :=
  ⟨hne, fun c hc => hd.all c (hm.subset hc)⟩

/-- A point may stand between any two digits. -/
theorem split (hd : IsDigits ds) {n : Nat} (hn : 0 < n) (hlt : n < ds.length) :
    IsDigits (ds.take n) ∧ IsDigits (ds.drop n) := by
  constructor
  · refine hd.of_sublist (List.take_sublist _ _) ?_
    rw [Ne, List.take_eq_nil_iff, not_or]
    exact ⟨by omega, hd.ne_nil⟩
  · refine hd.of_sublist (List.drop_sublist _ _) ?_
    rw [Ne, List.drop_eq_nil_iff]
    omega

/-- A row of digits is taken off the front of a text. -/
theorem splitDigits_append (hd : IsDigits ds) {rest : List Char} (hr : NoDigit rest) :
    splitDigits (ds ++ rest) = (ds, rest) := by
  obtain ⟨htake, hdrop⟩ := span_append hd.all hr
  rw [splitDigits, htake, hdrop]

end IsDigits

/-- Integers that are read are words. -/
theorem fitsInt64_of_readInteger {cs : List Char} {n : Int} (h : readInteger cs = some n) :
    fitsInt64 n = true := by
  unfold readInteger at h
  simp only at h
  split at h
  · cases h
  · split at h
    · rename_i hfits
      cases h
      exact hfits
    · cases h

/-! ## Their value -/

theorem digitsValue_eq (ds : List Char) : digitsValue ds = Nat.ofDigitChars 10 ds 0 := by
  rw [Nat.ofDigitChars_eq_foldl, digitsValue]

@[simp]
theorem digitsValue_toDigits (n : Nat) : digitsValue (Nat.toDigits 10 n) = n := by
  rw [digitsValue_eq, Nat.ofDigitChars_ten_toDigits]

/-- Zeros in front do not count. -/
@[simp]
theorem digitsValue_zeros_append (n : Nat) (ds : List Char) :
    digitsValue (List.replicate n '0' ++ ds) = digitsValue ds := by
  rw [digitsValue_eq, digitsValue_eq, Nat.ofDigitChars_append, Nat.ofDigitChars_replicate_zero,
    Nat.mul_zero]

/-- Zeros behind multiply. -/
theorem digitsValue_append_zeros (ds : List Char) (n : Nat) :
    digitsValue (ds ++ List.replicate n '0') = Nat.pow 10 n * digitsValue ds := by
  rw [digitsValue_eq, digitsValue_eq, Nat.ofDigitChars_append, Nat.ofDigitChars_replicate_zero]
  rfl

/-- Only zero begins with a zero. -/
theorem head?_toDigits {n : Nat} (hn : 0 < n) : (Nat.toDigits 10 n).head? ≠ some '0' := by
  induction n using Nat.strongRecOn with
  | _ n ih =>
      rw [Nat.toDigits_eq_if (by decide)]
      split
      · rename_i hlt
        have hall : ∀ d < 10, 0 < d → some d.digitChar ≠ some '0' := by decide
        exact hall n hlt hn
      · rename_i hge
        have hne : Nat.toDigits 10 (n / 10) ≠ [] := Nat.toDigits_ne_nil
        rw [List.head?_append_of_ne_nil _ hne]
        exact ih (n / 10) (by omega) (by omega)

end Decimal

/-! ## The fewest digits -/

namespace Magnitude

open Decimal

theorem zero_lt_pow {b : Nat} (hb : 0 < b) (n : Nat) : 0 < Nat.pow b n := Nat.pow_pos hb

theorem zero_lt_mul_pow {m b : Nat} (hm : 0 < m) (hb : 0 < b) (n : Nat) : 0 < m * Nat.pow b n :=
  Nat.mul_pos hm (zero_lt_pow hb n)

theorem zero_lt_significand {x : Magnitude} (hx : x ≠ zero) : 0 < x.significand := by
  have hval : x.val ≠ 0 := fun h => hx (Fin.ext h)
  unfold significand scale
  have hdiv : (x.val / binade - 1) * binade ≤ x.val / binade * binade - binade := by
    rw [Nat.sub_mul, Nat.one_mul]
  have hle := Nat.div_mul_le_self x.val binade
  have hpos : 0 < binade := by decide
  omega

/-- Only zero is identified by zero. -/
theorem not_isIdentifiedBy_zero {x : Magnitude} (hx : x ≠ zero) (exponent : Int) :
    x.isIdentifiedBy 0 exponent = false := by
  have hm := zero_lt_significand hx
  have hstep : 0 < Nat.pow 2 x.scale * Nat.pow 10 (-exponent).toNat :=
    Nat.mul_pos (zero_lt_pow (by decide) _) (zero_lt_pow (by decide) _)
  have hbelow : 0 < if x.significand = binade ∧ 0 < x.scale then 4 * x.significand - 1
      else 4 * x.significand - 2 := by split <;> omega
  have hproduct := Nat.mul_pos hbelow hstep
  unfold isIdentifiedBy
  simp only [Nat.mul_zero, Nat.zero_mul]
  split <;> simp only [Bool.and_eq_false_iff, decide_eq_false_iff_not] <;> left <;> omega

theorem pos_of_nearestGood {tie : Tie} {good : Nat → Bool} {num den n : Nat}
    (hpos : ∀ low, good low = true → 0 < low) (h : nearestGood tie good num den = some n) :
    0 < n := by
  unfold nearestGood at h
  simp only at h
  generalize num / den = low at h
  cases hlow : good low <;> cases hnext : good (low + 1) <;> rw [hlow, hnext] at h
  · cases h
  · cases h
    exact Nat.succ_pos low
  · cases h
    exact hpos n hlow
  · have hlow := hpos low hlow
    simp only at h
    split at h <;> cases h <;> omega

theorem pos_of_nearestOnGrid {tie : Tie} {x : Magnitude} (hx : x ≠ zero) {exponent : Int} {n : Nat}
    (h : x.nearestOnGrid tie exponent = some n) : 0 < n := by
  refine pos_of_nearestGood (fun low hlow => Nat.pos_of_ne_zero ?_) h
  rintro rfl
  rw [not_isIdentifiedBy_zero hx] at hlow
  cases hlow

/-- A row of digits that begins with a digit other than zero. -/
structure Leads (ds : List Char) : Prop extends IsDigits ds where
  head?_ne : ds.head? ≠ some '0'

theorem leads_toDigits {n : Nat} (hn : 0 < n) : Leads (Nat.toDigits 10 n) :=
  ⟨isDigits_toDigits n, head?_toDigits hn⟩

theorem leads_stripZeros {n : Nat} (hn : 0 < n) (exponent : Int) :
    Leads (stripZeros n exponent).digits := by
  have hall := leads_toDigits hn
  show Leads ((Nat.toDigits 10 n).rdropWhile (· == '0'))
  have hprefix := List.rdropWhile_prefix (· == '0') (Nat.toDigits 10 n)
  have hne : (Nat.toDigits 10 n).rdropWhile (· == '0') ≠ [] := by
    intro hnil
    -- the first digit would have to be a zero too
    obtain ⟨c, rest, hcons⟩ := List.exists_cons_of_ne_nil hall.ne_nil
    have hzeros := List.rdropWhile_eq_nil_iff.mp hnil c (by simp [hcons])
    refine hall.head?_ne ?_
    rw [hcons, List.head?_cons, eq_of_beq hzeros]
  refine ⟨hall.of_sublist hprefix.sublist hne, ?_⟩
  obtain ⟨stripped, happend⟩ := hprefix
  rw [← List.head?_append_of_ne_nil _ hne, happend]
  exact hall.head?_ne

theorem leads_getD {found : Option Digits} {n : Nat} {exponent : Int}
    (hfound : ∀ d ∈ found, Leads d.digits) (hn : 0 < n) :
    Leads (found.getD (stripZeros n exponent)).digits := by
  cases found with
  | none => exact leads_stripZeros hn exponent
  | some d => exact hfound d rfl

theorem zero_lt_units {x : Magnitude} (hx : x ≠ zero) : 0 < x.units :=
  zero_lt_mul_pow (zero_lt_significand hx) (by decide) _

/-- The fewest digits of a number other than zero. -/
theorem leads_shortest {x : Magnitude} (hx : x ≠ zero) (tie : Tie) :
    Leads (x.shortest tie).digits := by
  unfold shortest
  -- the power is named, so that it is not computed
  generalize 1074 = k
  refine leads_getD (fun d hd => ?_) (zero_lt_mul_pow (zero_lt_units hx) (by decide) k)
  obtain ⟨count, -, hcount⟩ := List.exists_of_findSome?_eq_some hd
  obtain ⟨n, hn, rfl⟩ := Option.map_eq_some_iff.mp hcount
  exact leads_stripZeros (pos_of_nearestOnGrid hx hn) _

end Magnitude

end RemoteConfig
