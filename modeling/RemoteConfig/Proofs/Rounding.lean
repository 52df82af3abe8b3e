import RemoteConfig.Proofs.Digits
import RemoteConfig.Proofs.Range
/-! # Rounding

A magnitude covers the quotients between the half-way points to its two neighbours, and these are
the quotients that are rounded to it.  Whether a quotient is covered depends on its value alone, so
it does not matter how its digits are written.  The fewest digits that identify a magnitude are
covered by it. -/

namespace RemoteConfig

namespace Magnitude

/-- The half-way point to the neighbour below, in quarters of a step.  Below a power of two the
steps are half as wide. -/
def lowerQuarters (x : Magnitude) : Nat :=
  if x.significand = binade ∧ 0 < x.scale then 4 * x.significand - 1 else 4 * x.significand - 2

/-- Whether `num / den` units lie between the half-way points to the two neighbours, which
themselves belong to an even significand. -/
def Covers (x : Magnitude) (num den : Nat) : Prop :=
  let step := den * Nat.pow 2 x.scale
  if x.significand % 2 = 0 then
    x.lowerQuarters * step ≤ 4 * num ∧ 4 * num ≤ (4 * x.significand + 2) * step
  else x.lowerQuarters * step < 4 * num ∧ 4 * num < (4 * x.significand + 2) * step

theorem isIdentifiedBy_iff {x : Magnitude} {coefficient : Nat} {exponent : Int} :
    x.isIdentifiedBy coefficient exponent = true ↔
      x.Covers (coefficient * Nat.pow 10 exponent.toNat * unitsPerOne)
        (Nat.pow 10 (-exponent).toNat) := by
  unfold isIdentifiedBy Covers lowerQuarters
  simp only [Nat.mul_assoc, Nat.mul_comm (Nat.pow 2 x.scale)]
  split <;> simp

/-! ## Quotients of one value -/

section Ratio

variable {num den num' den' : Nat} (h : num * den' = num' * den) (hden : 0 < den) (hden' : 0 < den')
include h hden hden'

theorem mul_le_iff_of_ratio (a : Nat) : a * den ≤ num ↔ a * den' ≤ num' := by
  rw [← Nat.mul_le_mul_right_iff hden', h, Nat.mul_right_comm, Nat.mul_le_mul_right_iff hden]

theorem le_mul_iff_of_ratio (a : Nat) : num ≤ a * den ↔ num' ≤ a * den' := by
  rw [← Nat.mul_le_mul_right_iff hden', h, Nat.mul_right_comm, Nat.mul_le_mul_right_iff hden]

theorem covers_congr (x : Magnitude) : x.Covers num den ↔ x.Covers num' den' := by
  have h4 : 4 * num * den' = 4 * num' * den := by rw [Nat.mul_assoc, h, Nat.mul_assoc]
  have hassoc (a d : Nat) : a * (d * Nat.pow 2 x.scale) = a * Nat.pow 2 x.scale * d := by
    rw [Nat.mul_comm d, Nat.mul_assoc]
  have hle (a : Nat) := mul_le_iff_of_ratio h4 hden hden' (a * Nat.pow 2 x.scale)
  have hge (a : Nat) := le_mul_iff_of_ratio h4 hden hden' (a * Nat.pow 2 x.scale)
  unfold Covers
  simp only [hassoc, ← Nat.not_le, hle, hge]

end Ratio

/-! ## What is covered is rounded -/

theorem divNearestEven_eq {num den n : Nat} (hden : 0 < den)
    (hlow : 2 * (n * den) ≤ 2 * num + den) (hhigh : 2 * num ≤ 2 * (n * den) + den)
    (hodd : n % 2 = 1 → 2 * (n * den) < 2 * num + den ∧ 2 * num < 2 * (n * den) + den) :
    divNearestEven num den = n := by
  have hdiv := Nat.div_add_mod' num den
  have hmod := Nat.mod_lt num hden
  -- the quotient is `n`, or one less
  have hle : num / den ≤ n := by
    by_contra hlt
    have hstep : (n + 1) * den ≤ num / den * den := Nat.mul_le_mul_right den (by omega)
    rw [Nat.succ_mul] at hstep
    omega
  have hge : n ≤ num / den + 1 := by
    by_contra hlt
    have hstep : (num / den + 2) * den ≤ n * den := Nat.mul_le_mul_right den (by omega)
    rw [Nat.add_mul] at hstep
    omega
  unfold divNearestEven
  simp only
  obtain heq | heq : n = num / den ∨ n = num / den + 1 := by omega
  · rw [← heq] at hdiv ⊢
    split
    · rfl
    · split <;> omega
  · have hmul : n * den = num / den * den + den := by rw [heq, Nat.succ_mul]
    split
    · omega
    · split <;> omega

theorem ofUnits_eq {num den t n : Nat} (ht : (num / den).log2 - 52 = t)
    (hn : divNearestEven num (den * Nat.pow 2 t) = n) :
    ofUnits num den = ofRank (t * binade + n) := by
  unfold ofUnits
  simp only [ht, hn]

theorem ofRank_val (x : Magnitude) : ofRank x.val = x :=
  Fin.ext (Nat.min_eq_left (Nat.le_of_lt_succ x.isLt))

theorem val_eq (x : Magnitude) : x.val = x.scale * binade + x.significand := by
  have hle : x.scale * binade ≤ x.val := by
    unfold scale
    rw [Nat.sub_mul]
    exact Nat.le_trans (Nat.sub_le _ _) (Nat.div_mul_le_self _ _)
  unfold significand
  omega

theorem significand_lt (x : Magnitude) : x.significand < 2 * binade := by
  have hlt := Nat.lt_div_mul_add (a := x.val) (b := binade) (two_pow_pos 52)
  have hval := x.val_eq
  have hsub := Nat.sub_mul (x.val / binade) 1 binade
  unfold scale at hval
  omega

theorem binade_le_significand {x : Magnitude} (hx : 0 < x.scale) : binade ≤ x.significand := by
  have hle := Nat.div_mul_le_self x.val binade
  have hval := x.val_eq
  have hsub := Nat.sub_mul (x.val / binade) 1 binade
  have hone : binade ≤ x.val / binade * binade :=
    Nat.le_mul_of_pos_left binade (Nat.lt_of_lt_of_le hx (Nat.sub_le _ _))
  unfold scale at hval
  omega

/-- A quotient in a binade. -/
theorem log2_div {num den t : Nat} (hden : 0 < den)
    (hlow : binade * (den * Nat.pow 2 t) ≤ num) (hhigh : num < 2 * binade * (den * Nat.pow 2 t)) :
    (num / den).log2 - 52 = t := by
  have hlow' : Nat.pow 2 (52 + t) ≤ num / den := by
    rw [Nat.le_div_iff_mul_le hden, two_pow_add, ← binade_eq, Nat.mul_assoc, Nat.mul_comm _ den]
    exact hlow
  have hhigh' : num / den < Nat.pow 2 (52 + t + 1) := by
    rw [Nat.div_lt_iff_lt_mul hden, show 52 + t + 1 = 53 + t by omega, two_pow_add, Nat.mul_assoc,
      Nat.mul_comm _ den]
    exact hhigh
  have hne : num / den ≠ 0 := Nat.pos_iff_ne_zero.mp (Nat.lt_of_lt_of_le (two_pow_pos _) hlow')
  have hlog := (Nat.log2_eq_iff hne).mpr ⟨hlow', hhigh'⟩
  omega

/-- Below the second binade the steps are units. -/
theorem log2_div_zero {num den : Nat} (hden : 0 < den) (hhigh : num < 2 * binade * den) :
    (num / den).log2 - 52 = 0 := by
  have hhigh' : num / den < Nat.pow 2 53 := (Nat.div_lt_iff_lt_mul hden).mpr hhigh
  rcases Nat.eq_zero_or_pos (num / den) with hzero | hpos
  · rw [hzero, Nat.log2_zero]
  · have hlog := (Nat.log2_lt (Nat.pos_iff_ne_zero.mp hpos)).mpr hhigh'
    omega

namespace Covers

variable {x : Magnitude} {num den : Nat}

/-- A covered quotient is at most half a step away, and less than that from an odd significand. -/
theorem halfStep (h : x.Covers num den) {step : Nat} (hstep : step = den * Nat.pow 2 x.scale) :
    2 * (x.significand * step) ≤ 2 * num + step ∧ 2 * num ≤ 2 * (x.significand * step) + step ∧
      (x.significand % 2 = 1 → 2 * (x.significand * step) < 2 * num + step ∧
        2 * num < 2 * (x.significand * step) + step) := by
  have hlower : 4 * x.significand - 2 ≤ x.lowerQuarters := by
    unfold lowerQuarters
    split <;> omega
  have hmul : (4 * x.significand - 2) * step ≤ x.lowerQuarters * step :=
    Nat.mul_le_mul_right step hlower
  have hsub : (4 * x.significand - 2) * step = 4 * (x.significand * step) - 2 * step := by
    rw [Nat.sub_mul, Nat.mul_assoc]
  have hadd : (4 * x.significand + 2) * step = 4 * (x.significand * step) + 2 * step := by
    rw [Nat.add_mul, Nat.mul_assoc]
  unfold Covers at h
  simp only [← hstep] at h
  split at h <;> omega

/-- Just below a power of two the steps are half as wide. -/
theorem quarterStep (h : x.Covers num den) (hx : x.significand = binade) (hscale : 0 < x.scale)
    {step : Nat} (hstep : step = den * Nat.pow 2 x.scale) :
    4 * (binade * step) ≤ 4 * num + step := by
  have heven : x.significand % 2 = 0 := by rw [hx]; rfl
  have hlower : x.lowerQuarters = 4 * binade - 1 := by
    rw [lowerQuarters, if_pos ⟨hx, hscale⟩, hx]
  unfold Covers at h
  simp only [heven, if_true, hlower, ← hstep] at h
  have hsub := Nat.sub_mul (4 * binade) 1 step
  rw [Nat.mul_assoc] at hsub
  omega

/-- A covered quotient that lies below a power of two is rounded up to it from the binade before. -/
theorem ofUnits_eq_power (h : x.Covers num den) (hden : 0 < den) (hx : x.significand = binade)
    {t : Nat} (ht : x.scale = t + 1) (hlt : num < binade * (den * Nat.pow 2 x.scale)) :
    ofUnits num den = x := by
  have hhalf : 0 < den * Nat.pow 2 t := Nat.mul_pos hden (two_pow_pos _)
  generalize hstep : den * Nat.pow 2 t = step at hhalf
  have hdouble : 2 * step = den * Nat.pow 2 x.scale := by
    rw [ht, two_pow_add, ← Nat.mul_assoc, hstep, Nat.mul_comm]
  have hquarter := h.quarterStep hx (by omega) hdouble
  have hone : step ≤ binade * step := Nat.le_mul_of_pos_left _ (two_pow_pos 52)
  have hassoc : 2 * binade * step = 2 * (binade * step) := Nat.mul_assoc ..
  rw [← hdouble, Nat.mul_left_comm] at hlt
  rw [Nat.mul_left_comm binade] at hquarter
  have hlog : (num / den).log2 - 52 = t :=
    log2_div hden (by rw [hstep]; omega) (by rw [hstep]; omega)
  have hround : divNearestEven num step = 2 * binade :=
    divNearestEven_eq hhalf (by omega) (by omega) fun hodd => absurd hodd (by decide)
  rw [Magnitude.ofUnits_eq hlog (hstep ▸ hround), ← x.ofRank_val, x.val_eq, hx, ht,
    Nat.add_mul t 1, Nat.one_mul, Nat.add_assoc, ← Nat.two_mul]

/-- A covered quotient is rounded to the magnitude. -/
theorem ofUnits_eq (h : x.Covers num den) (hden : 0 < den) : ofUnits num den = x := by
  obtain ⟨hlow, hhigh, hodd⟩ := h.halfStep rfl
  have hstep : 0 < den * Nat.pow 2 x.scale := Nat.mul_pos hden (two_pow_pos _)
  have hbelow : num < 2 * binade * (den * Nat.pow 2 x.scale) := by
    have hmul : (x.significand + 1) * (den * Nat.pow 2 x.scale) ≤
        2 * binade * (den * Nat.pow 2 x.scale) := Nat.mul_le_mul_right _ x.significand_lt
    rw [Nat.succ_mul] at hmul
    omega
  -- in the binade of the magnitude its own significand is the nearest
  have hsame (ht : (num / den).log2 - 52 = x.scale) : ofUnits num den = x := by
    rw [Magnitude.ofUnits_eq ht (divNearestEven_eq hstep hlow hhigh hodd), ← x.val_eq, ofRank_val]
  rcases Nat.eq_zero_or_pos x.scale with hscale | hscale
  · refine hsame ?_
    rw [hscale] at hbelow ⊢
    exact log2_div_zero hden (by simpa using hbelow)
  · by_cases hge : binade * (den * Nat.pow 2 x.scale) ≤ num
    · exact hsame (log2_div hden hge hbelow)
    · have hpower : x.significand = binade := by
        refine Nat.le_antisymm (Nat.le_of_not_lt fun hlt => ?_) (binade_le_significand hscale)
        have hmul : (binade + 1) * (den * Nat.pow 2 x.scale) ≤
            x.significand * (den * Nat.pow 2 x.scale) := Nat.mul_le_mul_right _ hlt
        rw [Nat.succ_mul] at hmul
        omega
      exact h.ofUnits_eq_power hden hpower (Nat.succ_pred_eq_of_pos hscale).symm
        (Nat.lt_of_not_le hge)

end Covers

/-! ## The fewest digits -/

theorem identified_of_nearestGood {tie : Tie} {good : Nat → Bool} {num den n : Nat}
    (h : nearestGood tie good num den = some n) : good n = true := by
  unfold nearestGood at h
  simp only at h
  generalize num / den = low at h
  cases hlow : good low <;> cases hnext : good (low + 1) <;> rw [hlow, hnext] at h
  · cases h
  · cases h
    exact hnext
  · cases h
    exact hlow
  · simp only at h
    split at h
    · cases h
      exact hlow
    · cases h
      exact hnext
    · cases h
      exact hnext
    · obtain heven | hodd := Nat.mod_two_eq_zero_or_one low
      · rw [heven] at h
        cases h
        exact hlow
      · rw [hodd] at h
        cases h
        exact hnext

/-- A magnitude covers itself. -/
theorem covers_units {x : Magnitude} (hx : x ≠ zero) : x.Covers x.units 1 := by
  have hsignificand := zero_lt_significand hx
  have hstep : 0 < Nat.pow 2 x.scale := two_pow_pos _
  have hlower : x.lowerQuarters < 4 * x.significand := by
    unfold lowerQuarters
    split <;> omega
  have hlow : x.lowerQuarters * Nat.pow 2 x.scale < 4 * x.significand * Nat.pow 2 x.scale :=
    Nat.mul_lt_mul_of_pos_right hlower hstep
  have hhigh : 4 * x.significand * Nat.pow 2 x.scale <
      (4 * x.significand + 2) * Nat.pow 2 x.scale :=
    Nat.mul_lt_mul_of_pos_right (by omega) hstep
  unfold Covers units
  simp only [Nat.one_mul, ← Nat.mul_assoc]
  split
  · exact ⟨Nat.le_of_lt hlow, Nat.le_of_lt hhigh⟩
  · exact ⟨hlow, hhigh⟩

/-- The exact value of a magnitude as a decimal. -/
theorem isIdentifiedBy_exact {x : Magnitude} (hx : x ≠ zero) :
    x.isIdentifiedBy (x.units * Nat.pow 5 1074) (-1074) = true := by
  obtain ⟨k, hk, hunits⟩ := unitsPerOne_eq
  have hexponent : (-1074 : Int) = -(k : Int) := by omega
  have hdenominator : (- -(k : Int)).toNat = k := by omega
  have hnumerator : (-(k : Int)).toNat = 0 := by omega
  rw [← hk, hexponent, isIdentifiedBy_iff, hdenominator, hnumerator, hunits]
  refine (covers_congr ?_ Nat.one_pos (zero_lt_pow (by decide) k) x).mp (covers_units hx)
  have hten : Nat.pow 10 k = Nat.pow 5 k * Nat.pow 2 k := Nat.mul_pow 5 2 k
  rw [hten, Nat.mul_one, ← Nat.mul_assoc]
  exact congrArg (· * Nat.pow 2 k) (Nat.mul_one _).symm

theorem length_toDigits_le (n : Nat) {k : Nat} (hk : 0 < k) :
    (Nat.toDigits 10 n).length ≤ k ↔ n < Nat.pow 10 k := Nat.length_toDigits_le_iff (by decide) hk

theorem pow_ten_le (k : Nat) : Nat.pow 10 (7 * k) ≤ Nat.pow 5 (11 * k) :=
  calc Nat.pow 10 (7 * k) = Nat.pow (Nat.pow 10 7) k := Nat.pow_mul 10 7 k
    _ ≤ Nat.pow (Nat.pow 5 11) k := Nat.pow_le_pow_left (by decide) k
    _ = Nat.pow 5 (11 * k) := (Nat.pow_mul 5 11 k).symm

/-- A multiple of a high power of five has a long row of digits. -/
theorem length_mul_pow_five {n j : Nat} (hn : 0 < n) (hj : 1056 ≤ j) :
    673 ≤ (Nat.toDigits 10 (n * Nat.pow 5 j)).length := by
  obtain ⟨k, hk⟩ : ∃ k, k = 96 := ⟨_, rfl⟩
  refine Nat.lt_of_not_le fun hle => ?_
  have hlt : n * Nat.pow 5 j < Nat.pow 10 (7 * k) :=
    (length_toDigits_le _ (by omega)).mp (by omega)
  have hfive : Nat.pow 5 (11 * k) ≤ Nat.pow 5 j := Nat.pow_le_pow_right (by decide) (by omega)
  have hmul := Nat.le_mul_of_pos_left (Nat.pow 5 j) hn
  have hten := pow_ten_le k
  omega

/-- The fewest digits come from a decimal that identifies the magnitude, and whose exponent is not
far below its first digit. -/
theorem exists_shortest {x : Magnitude} (hx : x ≠ zero) (tie : Tie) :
    ∃ coefficient exponent, x.shortest tie = stripZeros coefficient exponent ∧
      x.isIdentifiedBy coefficient exponent = true ∧
      -((Nat.toDigits 10 coefficient).length + 401 : Int) ≤ exponent := by
  unfold shortest
  simp only
  cases hfound : (List.range' 1 17).findSome? fun (count : Nat) =>
      (x.nearestOnGrid tie (x.decimalPoint - (count : Int))).map
        (stripZeros · (x.decimalPoint - (count : Int))) with
  | none =>
      refine ⟨_, _, Option.getD_none, isIdentifiedBy_exact hx, ?_⟩
      obtain ⟨j, hj⟩ : ∃ j, j = 1074 := ⟨_, rfl⟩
      rw [← hj]
      have hlength := length_mul_pow_five (j := j) (zero_lt_units hx) (by omega)
      omega
  | some d =>
      obtain ⟨count, hcount, hd⟩ := List.exists_of_findSome?_eq_some hfound
      obtain ⟨n, hn, rfl⟩ := Option.map_eq_some_iff.mp hd
      refine ⟨n, _, Option.getD_some, identified_of_nearestGood hn, ?_⟩
      have hrange := List.mem_range'_1.mp hcount
      unfold decimalPoint
      omega

end Magnitude

end RemoteConfig
