import RemoteConfig.Proofs.Records
/-! # The range of numbers

Whatever numbers a JSON text holds, those that can be read are in range: the integers fit 64 bits
with or without a sign, and all others are finite.  The steps by which digits are scaled stay below
infinity: a product that would not is refused, and a quotient is smaller than what was divided. -/

namespace RemoteConfig

namespace Magnitude

/-! ## Rounding and powers of two -/

theorem divNearestEven_le (num den : Nat) : divNearestEven num den ≤ num / den + 1 := by
  unfold divNearestEven
  simp only
  split
  · omega
  · split <;> omega

theorem le_divNearestEven (num den : Nat) : num / den ≤ divNearestEven num den := by
  unfold divNearestEven
  simp only
  split
  · omega
  · split <;> omega

theorem two_pow_add (a b : Nat) : Nat.pow 2 (a + b) = Nat.pow 2 a * Nat.pow 2 b := Nat.pow_add 2 a b

theorem two_pow_le {a b : Nat} (h : a ≤ b) : Nat.pow 2 a ≤ Nat.pow 2 b :=
  Nat.pow_le_pow_right (by decide) h

theorem two_pow_pos (n : Nat) : 0 < Nat.pow 2 n := Nat.pow_pos (by decide)

theorem binade_eq : binade = Nat.pow 2 52 := rfl

theorem infinityRank_eq : infinityRank = 2047 * binade := rfl

/-- The power is named, so that it is not computed. -/
theorem unitsPerOne_eq : ∃ k, k = 1074 ∧ unitsPerOne = Nat.pow 2 k := by
  unfold unitsPerOne
  generalize 1074 = k
  exact ⟨k, rfl, rfl⟩

/-- A quotient below `2 ^ 2097` units is rounded to a finite magnitude. -/
theorem isFinite_ofUnits {num den k : Nat} (h : num / den < Nat.pow 2 k) (hk : k ≤ 2097) :
    (ofUnits num den).isFinite = true := by
  unfold ofUnits
  simp only
  generalize hscale : (num / den).log2 - 52 = scale
  have hlog : (num / den).log2 ≤ 2096 := by
    rcases Nat.eq_zero_or_pos (num / den) with hzero | hpos
    · rw [hzero, Nat.log2_zero]
      omega
    · have hlt := (Nat.log2_lt (Nat.pos_iff_ne_zero.mp hpos)).mpr h
      omega
  have hquotient : num / (den * Nat.pow 2 scale) < Nat.pow 2 53 := by
    rw [← Nat.div_div_eq_div_mul]
    refine Nat.div_lt_of_lt_mul ?_
    rw [← two_pow_add]
    calc num / den < Nat.pow 2 ((num / den).log2 + 1) := Nat.lt_log2_self
      _ ≤ Nat.pow 2 (scale + 53) := two_pow_le (by omega)
  have hrounded := divNearestEven_le num (den * Nat.pow 2 scale)
  have htwice : Nat.pow 2 53 = 2 * binade := rfl
  have hrank : scale * binade ≤ 2044 * binade := Nat.mul_le_mul_right binade (by omega)
  have htop : infinityRank = 2044 * binade + 3 * binade := rfl
  have hbinade : 0 < binade := two_pow_pos 52
  refine decide_eq_true (Nat.lt_of_le_of_lt (Nat.min_le_left ..) ?_)
  omega

theorem scale_le {x : Magnitude} (hx : x.isFinite = true) : x.scale ≤ 2045 := by
  have hrank : x.val < 2047 * binade := of_decide_eq_true hx
  have hquotient : x.val / binade < 2047 :=
    (Nat.div_lt_iff_lt_mul (two_pow_pos 52)).mpr hrank
  unfold scale
  omega

theorem units_lt (x : Magnitude) : x.units < Nat.pow 2 (53 + x.scale) := by
  have hbinade : 0 < binade := two_pow_pos 52
  have hmod := Nat.div_add_mod x.val binade
  have hlt := Nat.mod_lt x.val hbinade
  have hsignificand : x.significand < Nat.pow 2 53 := by
    have htwice : Nat.pow 2 53 = 2 * binade := rfl
    have hcomm := Nat.mul_comm binade (x.val / binade)
    have hsub := Nat.sub_mul (x.val / binade) 1 binade
    unfold significand scale
    omega
  rw [two_pow_add]
  exact Nat.mul_lt_mul_of_pos_right hsignificand (two_pow_pos _)

/-- A rank of `s + 1` binades has at least `2 ^ (52 + s)` units. -/
theorem two_pow_le_units {x : Magnitude} {s : Nat} (h : (s + 1) * binade ≤ x.val) :
    Nat.pow 2 (52 + s) ≤ x.units := by
  have hbinade : 0 < binade := two_pow_pos 52
  have hquotient : s + 1 ≤ x.val / binade := (Nat.le_div_iff_mul_le hbinade).mpr h
  have hmod := Nat.div_add_mod x.val binade
  have hsignificand : Nat.pow 2 52 ≤ x.significand := by
    have hcomm := Nat.mul_comm binade (x.val / binade)
    have hsub := Nat.sub_mul (x.val / binade) 1 binade
    have hone : binade ≤ x.val / binade * binade := Nat.le_mul_of_pos_left binade (by omega)
    rw [← binade_eq]
    unfold significand scale
    omega
  rw [two_pow_add]
  refine Nat.mul_le_mul hsignificand (two_pow_le ?_)
  unfold scale
  omega

/-- Rounding does not fall below a power of two. -/
theorem two_pow_le_units_ofUnits {num den s : Nat} (h : Nat.pow 2 (52 + s) ≤ num / den)
    (hs : s < 2047) : Nat.pow 2 (52 + s) ≤ (ofUnits num den).units := by
  refine two_pow_le_units ?_
  have hne : num / den ≠ 0 := Nat.pos_iff_ne_zero.mp (Nat.lt_of_lt_of_le (two_pow_pos _) h)
  unfold ofUnits
  simp only
  generalize hscale : (num / den).log2 - 52 = scale
  have hlog : 52 + s ≤ (num / den).log2 := (Nat.le_log2 hne).mpr h
  have hquotient : binade ≤ num / (den * Nat.pow 2 scale) := by
    rw [← Nat.div_div_eq_div_mul, Nat.le_div_iff_mul_le (two_pow_pos _), binade_eq, ← two_pow_add]
    calc Nat.pow 2 (52 + scale) ≤ Nat.pow 2 (num / den).log2 := two_pow_le (by omega)
      _ ≤ num / den := Nat.log2_self_le hne
  have hrounded := le_divNearestEven num (den * Nat.pow 2 scale)
  have hrank : (s + 1) * binade ≤ scale * binade + binade := by
    rw [← Nat.succ_mul]
    exact Nat.mul_le_mul_right binade (by omega)
  refine Nat.le_min.mpr ⟨by omega, ?_⟩
  rw [infinityRank_eq]
  exact Nat.mul_le_mul_right binade (by omega)

/-- A finite magnitude divided by eight or more is finite. -/
theorem isFinite_div {x y : Magnitude} {s : Nat} (hx : x.isFinite = true) (hs : 1025 ≤ s)
    (hy : Nat.pow 2 (52 + s) ≤ y.units) : (x.div y).isFinite = true := by
  have hscale := scale_le hx
  obtain ⟨one, hone, hunits⟩ := unitsPerOne_eq
  obtain ⟨k, hk⟩ : ∃ k, k = 2097 := ⟨_, rfl⟩
  refine isFinite_ofUnits (k := k) (Nat.div_lt_of_lt_mul ?_) (by omega)
  rw [hunits]
  calc x.units * Nat.pow 2 one
      < Nat.pow 2 (53 + x.scale) * Nat.pow 2 one :=
        Nat.mul_lt_mul_of_pos_right (units_lt x) (two_pow_pos one)
    _ = Nat.pow 2 (53 + x.scale + one) := (two_pow_add _ _).symm
    _ ≤ Nat.pow 2 (52 + s + k) := two_pow_le (by omega)
    _ = Nat.pow 2 (52 + s) * Nat.pow 2 k := two_pow_add _ _
    _ ≤ y.units * Nat.pow 2 k := Nat.mul_le_mul_right _ hy

/-- Words of 64 bits are finite. -/
theorem isFinite_ofNat {n : Nat} (h : n < 0x10000000000000000) : (ofNat n).isFinite = true := by
  obtain ⟨one, hone, hunits⟩ := unitsPerOne_eq
  refine isFinite_ofUnits (k := 64 + one) ?_ (by omega)
  rw [Nat.div_one, hunits, two_pow_add]
  exact Nat.mul_lt_mul_of_pos_right h (two_pow_pos one)

theorem two_pow_le_units_ofNat {n : Nat} (h : 8 ≤ n) :
    ∃ s, 1025 ≤ s ∧ Nat.pow 2 (52 + s) ≤ (ofNat n).units := by
  obtain ⟨one, hone, hunits⟩ := unitsPerOne_eq
  obtain ⟨s, hs⟩ : ∃ s, s = 1025 := ⟨_, rfl⟩
  refine ⟨s, by omega, two_pow_le_units_ofUnits ?_ (by omega)⟩
  rw [Nat.div_one, hunits, show 52 + s = 3 + one by omega, two_pow_add]
  exact Nat.mul_le_mul_right _ h

theorem isFinite_div_tenPower {x : Magnitude} (hx : x.isFinite = true) {e : Nat} (he : 0 < e) :
    (x.div (ofNat (Nat.pow 10 e))).isFinite = true := by
  have hten : 8 ≤ Nat.pow 10 e :=
    calc 8 ≤ Nat.pow 10 1 := by decide
      _ ≤ Nat.pow 10 e := Nat.pow_le_pow_right (by decide) he
  obtain ⟨s, hs, hunits⟩ := two_pow_le_units_ofNat hten
  exact isFinite_div hx hs hunits

end Magnitude

namespace Json

open Decimal

/-! ## Literals -/

theorem isFinite_scaleByTen {x y : Magnitude} {exponent : Int} (hx : x.isFinite = true)
    (h : scaleByTen x exponent = some y) : y.isFinite = true := by
  fun_induction scaleByTen x exponent with
  | case1 x exponent hstep step hup product hproduct =>
      rw [← Option.some.inj h]
      exact hproduct
  | case2 => cases h
  | case3 x exponent hstep step hdown =>
      cases h
      exact Magnitude.isFinite_div_tenPower hx (by omega)
  | case4 =>
      cases h
      exact hx
  | case5 => cases h
  | case6 x exponent hstep hzero hdown ih =>
      exact ih (Magnitude.isFinite_div_tenPower hx (by decide)) h

/-- A word stays a word. -/
theorem extendWord_lt {word : Nat} (h : word < 0x10000000000000000) (digits : List Char) :
    (extendWord word digits).1 < 0x10000000000000000 := by
  fun_induction extendWord word digits with
  | case1 => exact h
  | case2 word c rest next hnext ih => exact ih hnext
  | case3 => exact h

theorem isFinite_zero : Magnitude.zero.isFinite = true := rfl

namespace Literal

theorem isFinite_scaled {l : Literal} {significand : Nat} {start : Int} {x : Magnitude}
    (hword : significand < 0x10000000000000000) (h : l.scaled significand start = some x) :
    x.isFinite = true := by
  have hfinite := Magnitude.isFinite_ofNat hword
  unfold scaled at h
  split at h
  · exact isFinite_scaleByTen hfinite h
  · simp only at h
    split at h
    · exact isFinite_scaleByTen hfinite h
    · split at h
      · cases h
        exact isFinite_zero
      · cases h

theorem isFinite_magnitude {l : Literal} {x : Magnitude} (h : l.magnitude = some x) :
    x.isFinite = true := by
  have hword : (extendWord 0 l.whole).1 < 0x10000000000000000 := extendWord_lt (by decide) _
  unfold magnitude at h
  simp only at h
  split at h
  · exact isFinite_scaled hword h
  · exact isFinite_scaled (extendWord_lt hword _) h

end Literal

/-! ## Values -/

mutual
/-- Whether the integers in a value fit 64 bits with or without a sign, and its floating numbers are
finite. -/
def inRange : Json → Bool
  | integer n => -0x8000000000000000 ≤ n && n < 0x10000000000000000
  | float x => x.isFinite
  | array items => allInRange items
  | object fields => fieldsInRange fields
  | _ => true

def allInRange : List Json → Bool
  | [] => true
  | j :: rest => inRange j && allInRange rest

def fieldsInRange : List (String × Json) → Bool
  | [] => true
  | (_, j) :: rest => inRange j && fieldsInRange rest
end

theorem inRange_array {items : List Json} :
    inRange (array items) = true ↔ ∀ j ∈ items, j.inRange = true := by
  rw [inRange]
  induction items with
  | nil => simp [allInRange]
  | cons j items ih => simp [allInRange, ih]

theorem inRange_object {fields : List (String × Json)} :
    inRange (object fields) = true ↔ ∀ field ∈ fields, field.2.inRange = true := by
  rw [inRange]
  induction fields with
  | nil => simp [fieldsInRange]
  | cons field fields ih => simp [fieldsInRange, ih]

theorem inRange_of_mem_parts {j k : Json} (h : j.inRange = true) (hk : k ∈ j.parts) :
    k.inRange = true := by
  unfold parts at hk
  split at hk
  · exact inRange_array.mp h k hk
  · obtain ⟨field, hfield, rfl⟩ := List.mem_map.mp hk
    exact inRange_object.mp h field hfield
  · cases hk

theorem Literal.inRange_value (l : Literal) : l.value.inRange = true := by
  unfold value
  simp only
  split
  · rename_i hint
    have hword := hint.2.2
    split
    · simp only [inRange, Bool.and_eq_true, decide_eq_true_eq]
      omega
    · split
      · simp only [inRange, Bool.and_eq_true, decide_eq_true_eq]
        omega
      · exact Magnitude.isFinite_ofNat hint.2.2
  · split
    · rename_i hx
      exact isFinite_magnitude hx
    · rfl

namespace Token

/-- Whether the numbers of a leaf are in range. -/
def InRange : Token → Prop
  | leaf j => j.inRange = true
  | _ => True

theorem inRange_leaf? {cs rest : List Char} {j : Json} (h : leaf? cs = some (j, rest)) :
    j.inRange = true := by
  unfold leaf? at h
  split at h
  iterate 3
    · cases h
      rfl
  iterate 2
    · obtain ⟨⟨l, tail⟩, -, hl⟩ := Option.map_eq_some_iff.mp h
      cases hl
      exact l.inRange_value

theorem inRange_step {cs rest : List Char} {token : Token}
    (h : step cs = some (some token, rest)) : token.InRange := by
  cases cs with
  | nil => cases h
  | cons c cs =>
      rw [step] at h
      split at h
      · cases h
      · split at h
        · rename_i hmark
          cases h
          revert hmark
          unfold mark?
          split <;> rintro ⟨⟩ <;> trivial
        · split at h
          · obtain ⟨⟨text, tail⟩, htext, heq⟩ := Option.map_eq_some_iff.mp h
            obtain ⟨⟨units, tail⟩, -, hunits⟩ := Option.map_eq_some_iff.mp htext
            cases heq
            cases hunits
            trivial
          · obtain ⟨⟨j, tail⟩, hj, heq⟩ := Option.map_eq_some_iff.mp h
            cases heq
            exact inRange_leaf? hj

theorem inRange_scan {cs : List Char} {tokens : List Token} (h : scan cs = some tokens) :
    ∀ token ∈ tokens, token.InRange := by
  fun_induction scan cs generalizing tokens with
  | case1 =>
      cases h
      simp
  | case2 => cases h
  | case3 cs hne token rest hstep ih =>
      obtain ⟨others, hothers, rfl⟩ := Option.map_eq_some_iff.mp h
      intro t ht
      rcases List.mem_append.mp ht with ht | ht
      · cases token with
        | none => cases ht
        | some token =>
            rw [List.mem_singleton.mp ht]
            exact inRange_step hstep
      · exact ih hothers t ht

end Token

/-- Whether the numbers in all that an open array or object holds are in range. -/
def Frame.InRange : Frame → Prop
  | items done => ∀ j ∈ done, j.inRange = true
  | fields done _ => ∀ field ∈ done, field.2.inRange = true

theorem inRange_closeFields {done : List (Option String × Json)}
    (h : ∀ field ∈ done, field.2.inRange = true) : (closeFields done).inRange = true := by
  unfold closeFields
  split
  · rename_i fields hfields
    rw [inRange_object]
    intro field hmem
    obtain ⟨pair, hpair, hread⟩ := exists_of_mem_mapM hfields hmem
    obtain ⟨name, -, rfl⟩ := Option.map_eq_some_iff.mp hread
    exact h pair (List.mem_reverse.mp hpair)
  · rfl

theorem forall_tail {t : Token} {tokens : List Token} (h : ∀ u ∈ t :: tokens, u.InRange) :
    ∀ u ∈ tokens, u.InRange := fun u hu => h u (List.mem_cons_of_mem t hu)

theorem forall_push {f : Frame} {stack : List Frame} (hf : f.InRange)
    (h : ∀ g ∈ stack, g.InRange) : ∀ g ∈ f :: stack, g.InRange :=
  List.forall_mem_cons.mpr ⟨hf, h⟩

mutual
/-- The numbers of a value are in range if those of the tokens and of what is open are. -/
theorem inRange_of_value {stack : List Frame} {tokens : List Token} {j : Json}
    (h : value stack tokens = some j) (htokens : ∀ t ∈ tokens, t.InRange)
    (hstack : ∀ f ∈ stack, f.InRange) : j.inRange = true := by
  unfold value at h
  split at h
  · exact inRange_of_after h (htokens _ (List.mem_cons_self ..)) (forall_tail htokens) hstack
  · exact inRange_of_after h rfl (forall_tail htokens) hstack
  · exact inRange_of_after h rfl (forall_tail htokens) hstack
  · exact inRange_of_after h rfl (forall_tail (forall_tail htokens)) hstack
  · exact inRange_of_value h (forall_tail htokens) (forall_push nofun hstack)
  · exact inRange_of_after h rfl (forall_tail (forall_tail htokens)) hstack
  · exact inRange_of_value h (forall_tail (forall_tail (forall_tail htokens)))
      (forall_push nofun hstack)
  · cases h
termination_by tokens.length

/-- So they are behind a value whose numbers are. -/
theorem inRange_of_after {k : Json} {stack : List Frame} {tokens : List Token} {j : Json}
    (h : after k stack tokens = some j) (hk : k.inRange = true)
    (htokens : ∀ t ∈ tokens, t.InRange) (hstack : ∀ f ∈ stack, f.InRange) :
    j.inRange = true := by
  unfold after at h
  split at h
  · cases h
    exact hk
  · obtain ⟨hdone, hstack⟩ := List.forall_mem_cons.mp hstack
    exact inRange_of_value h (forall_tail htokens)
      (forall_push (List.forall_mem_cons.mpr ⟨hk, hdone⟩) hstack)
  · obtain ⟨hdone, hstack⟩ := List.forall_mem_cons.mp hstack
    refine inRange_of_after h (inRange_array.mpr fun j hj => ?_) (forall_tail htokens) hstack
    rcases List.mem_cons.mp (List.mem_reverse.mp hj) with rfl | hj
    · exact hk
    · exact hdone j hj
  · obtain ⟨hdone, hstack⟩ := List.forall_mem_cons.mp hstack
    exact inRange_of_value h (forall_tail (forall_tail (forall_tail htokens)))
      (forall_push (List.forall_mem_cons.mpr ⟨hk, hdone⟩) hstack)
  · obtain ⟨hdone, hstack⟩ := List.forall_mem_cons.mp hstack
    exact inRange_of_after h (inRange_closeFields (List.forall_mem_cons.mpr ⟨hk, hdone⟩))
      (forall_tail htokens) hstack
  · cases h
termination_by tokens.length
end

/-- Whatever a text holds, its numbers are in range. -/
theorem inRange_of_parse {s : String} {j : Json} (h : parse s = some j) : j.inRange = true := by
  obtain ⟨tokens, htokens, hvalue⟩ := Option.bind_eq_some_iff.mp h
  exact inRange_of_value hvalue (Token.inRange_scan htokens) nofun

end Json

end RemoteConfig
