import Mathlib
import RemoteConfig.Proofs.Conditions
import RemoteConfig.Proofs.Moments
/-! # The order of versions

Continued with zeros, the segments of a version are a sequence without end, and versions are
compared as such sequences are, in lexicographic order.  That order is linear on sequences; so it is
on versions, up to zero segments at the end, which leave the sequence as it is.  The six operators
on versions ask for the order of two texts, and hold of none that is not written as a version. -/

namespace RemoteConfig

namespace Version

/-- The segment at a place; those after the last one are zero. -/
def segment (v : Version) (i : Nat) : Nat := v.segments.getD i 0

/-- At the first place where the segments differ, the first version has the smaller one. -/
def Precedes (v w : Version) : Prop :=
  ∃ i, (∀ j < i, v.segment j = w.segment j) ∧ v.segment i < w.segment i

/-- Versions that count as equal. -/
def Same (v w : Version) : Prop := v.cmp w = .eq

/-- A version that is not after another one. -/
def Le (v w : Version) : Prop := v.cmp w ≠ .gt

/-! ## Sequences of segments -/

/-- A sequence is before another if its first member is smaller, or if that is the same and the rest
is before the other rest. -/
theorem toLex_lt_iff {f g : Nat → Nat} : toLex f < toLex g ↔
    f 0 < g 0 ∨ f 0 = g 0 ∧ toLex (fun i => f (i + 1)) < toLex fun i => g (i + 1) := by
  constructor
  · rintro ⟨i, hsame, hlt⟩
    cases i with
    | zero => exact Or.inl hlt
    | succ i =>
        refine Or.inr ⟨hsame 0 i.succ_pos, i, fun j hj => ?_, hlt⟩
        exact hsame (j + 1) (Nat.succ_lt_succ hj)
  · rintro (hlt | ⟨hzero, i, hsame, hlt⟩)
    · exact ⟨0, nofun, hlt⟩
    · refine ⟨i + 1, fun j hj => ?_, hlt⟩
      cases j with
      | zero => exact hzero
      | succ j => exact hsame j (Nat.lt_of_succ_lt_succ hj)

theorem compare_toLex (f g : Nat → Nat) : compare (toLex f) (toLex g) =
    (compare (f 0) (g 0)).then
      (compare (toLex fun i => f (i + 1)) (toLex fun i => g (i + 1))) := by
  rcases lt_trichotomy (f 0) (g 0) with hzero | hzero | hzero
  · rw [compare_lt_iff_lt.mpr hzero, compare_lt_iff_lt.mpr (toLex_lt_iff.mpr (Or.inl hzero))]
    rfl
  · rw [compare_eq_iff_eq.mpr hzero]
    refine (compare_iff _ _).mpr ?_
    cases hrest : compare (toLex fun i => f (i + 1)) (toLex fun i => g (i + 1)) with
    | lt => exact toLex_lt_iff.mpr (Or.inr ⟨hzero, compare_lt_iff_lt.mp hrest⟩)
    | gt => exact toLex_lt_iff.mpr (Or.inr ⟨hzero.symm, compare_gt_iff_gt.mp hrest⟩)
    | eq =>
        have htail := compare_eq_iff_eq.mp hrest
        refine congrArg toLex (funext fun i => ?_)
        cases i with
        | zero => exact hzero
        | succ i => exact congrFun htail i
  · rw [compare_gt_iff_gt.mpr hzero, compare_gt_iff_gt.mpr (toLex_lt_iff.mpr (Or.inl hzero))]
    rfl

/-- Segments are compared as the sequences are that they begin. -/
theorem compareSegments_eq_compare (as bs : List Nat) : compareSegments as bs =
    compare (toLex fun i => as.getD i 0) (toLex fun i => bs.getD i 0) := by
  induction as, bs using compareSegments.induct with
  | case1 => rw [compareSegments, compare_eq_iff_eq.mpr rfl]
  | case2 b bs ih => rw [compareSegments, compare_toLex, ih]; rfl
  | case3 a as ih => rw [compareSegments, compare_toLex, ih]; rfl
  | case4 a as b bs ih => rw [compareSegments, compare_toLex, ih]; rfl

theorem cmp_eq_compare (v w : Version) : v.cmp w = compare (toLex v.segment) (toLex w.segment) :=
  compareSegments_eq_compare v.segments w.segments

/-! ## The order -/

section Order

variable {v w : Version}

theorem cmp_eq_lt_iff : v.cmp w = .lt ↔ v.Precedes w := by
  rw [cmp_eq_compare, compare_lt_iff_lt]
  exact Iff.rfl

theorem cmp_eq_gt_iff : v.cmp w = .gt ↔ w.Precedes v := by
  rw [cmp_eq_compare, compare_gt_iff_gt]
  exact Iff.rfl

theorem same_iff : v.Same w ↔ v.segment = w.segment := by
  rw [Same, cmp_eq_compare, compare_eq_iff_eq]
  exact Iff.rfl

theorem le_iff : v.Le w ↔ toLex v.segment ≤ toLex w.segment := by
  rw [Le, cmp_eq_compare, compare_le_iff_le]

theorem le_antisymm (h : v.Le w) (h' : w.Le v) : v.Same w := by
  have heq := (le_iff.mp h).antisymm (le_iff.mp h')
  exact same_iff.mpr (toLex.injective heq)

theorem le_trans {u : Version} (h : u.Le v) (h' : v.Le w) : u.Le w :=
  le_iff.mpr ((le_iff.mp h).trans (le_iff.mp h'))

theorem le_total (v w : Version) : v.Le w ∨ w.Le v := by
  rw [le_iff, le_iff]
  exact Std.Total.total _ _

theorem equivalence_same : Equivalence Same where
  refl _ := same_iff.mpr rfl
  symm h := same_iff.mpr (same_iff.mp h).symm
  trans h h' := same_iff.mpr ((same_iff.mp h).trans (same_iff.mp h'))

theorem cmp_congr {v' w' : Version} (hv : v.Same v') (hw : w.Same w') : v.cmp w = v'.cmp w' := by
  rw [cmp_eq_compare, cmp_eq_compare, same_iff.mp hv, same_iff.mp hw]

/-- Zeros at the end of the segments are no news. -/
theorem segment_append_zeros (segments : List Nat) (n : Nat) :
    segment ⟨segments ++ List.replicate n 0⟩ = segment ⟨segments⟩ := by
  funext i
  rcases Nat.lt_or_ge i segments.length with hi | hi
  · exact List.getD_append _ _ _ _ hi
  · rw [segment, segment, List.getD_append_right _ _ _ _ hi, List.getD_eq_default _ _ hi,
      List.getD_eq_getElem?_getD, List.getElem?_getD_replicate_default_eq]

/-- Versions count as equal if and only if zeros at the end are all that makes them differ. -/
theorem same_iff_zeros : v.Same w ↔
    ∃ m n, v.segments ++ List.replicate m 0 = w.segments ++ List.replicate n 0 := by
  rw [same_iff]
  constructor
  · intro h
    -- each list gets as many zeros as the other one is longer
    let m := w.segments.length - v.segments.length
    let n := v.segments.length - w.segments.length
    refine ⟨m, n, List.ext_getElem (by simp [m, n]; omega) fun i hi hi' => ?_⟩
    have hsegment : segment ⟨v.segments ++ List.replicate m 0⟩ i =
        segment ⟨w.segments ++ List.replicate n 0⟩ i := by
      rw [segment_append_zeros, segment_append_zeros]
      exact congrFun h i
    rwa [segment, segment, List.getD_eq_getElem _ _ hi, List.getD_eq_getElem _ _ hi'] at hsegment
  · rintro ⟨m, n, h⟩
    calc v.segment = segment ⟨v.segments ++ List.replicate m 0⟩ := (segment_append_zeros _ m).symm
      _ = segment ⟨w.segments ++ List.replicate n 0⟩ := by rw [h]
      _ = w.segment := segment_append_zeros _ n

end Order

/-! ## Texts of versions -/

/-- The text of a version, blanks around it aside: numbers of 64 bits with points between them. -/
def Written (s : String) : Prop :=
  ∃ parts : List (List Char), parts ≠ [] ∧ Text.trim s.toList = ['.'].intercalate parts ∧
    ∀ part ∈ parts, part ≠ [] ∧ (∀ c ∈ part, c.isDigit) ∧ Decimal.digitsValue part < 2 ^ 64

end Version

namespace Text

/-- A trimmed text does not begin with a blank. -/
theorem isBlank_of_trim {c : Char} {cs rest : List Char} (h : trim cs = c :: rest) :
    isBlank c = false := by
  have hprefix : trim cs <+: trimStart cs := by
    rw [trim, trimEnd, ← List.reverse_suffix, List.reverse_reverse]
    exact List.dropWhile_suffix isBlank
  obtain ⟨more, hmore⟩ := hprefix
  rw [h, List.cons_append, trimStart] at hmore
  have hhead := List.head?_dropWhile_not isBlank cs
  rw [← hmore] at hhead
  simpa using hhead

/-- What was trimmed stays as it is with a point and a zero after it. -/
theorem trim_append_zero (cs : List Char) :
    trim (trim cs ++ ['.', '0']) = trim cs ++ ['.', '0'] := by
  have hstart : trimStart (trim cs ++ ['.', '0']) = trim cs ++ ['.', '0'] := by
    cases h : trim cs with
    | nil => exact Timestamp.trimStart_cons (by decide) _
    | cons c rest => exact Timestamp.trimStart_cons (isBlank_of_trim h) _
  rw [trim, hstart, trimEnd, List.reverse_append]
  show (trimStart ('0' :: '.' :: (trim cs).reverse)).reverse = _
  rw [Timestamp.trimStart_cons (by decide)]
  simp

end Text

namespace Version

theorem isSome_mapM {α β : Type} {f : α → Option β} {xs : List α} :
    (xs.mapM f).isSome ↔ ∀ x ∈ xs, (f x).isSome := by
  induction xs with
  | nil => simp
  | cons x rest ih =>
      rw [List.mapM_cons, List.forall_mem_cons, ← ih]
      cases f x <;> cases rest.mapM f <;> simp

theorem isSome_readSegment {part : List Char} : (readSegment part).isSome ↔
    part ≠ [] ∧ (∀ c ∈ part, c.isDigit) ∧ Decimal.digitsValue part < 2 ^ 64 := by
  unfold readSegment
  by_cases hdigits : part ≠ [] ∧ ∀ c ∈ part, c.isDigit
  · rw [if_neg (by simpa using hdigits)]
    by_cases hlt : Decimal.digitsValue part < 0x10000000000000000
    · simpa [hlt] using hdigits
    · simp [hlt]
  · rw [if_pos (by simpa [or_iff_not_imp_left] using hdigits)]
    exact iff_of_false nofun fun h => hdigits ⟨h.1, h.2.1⟩

/-- Exactly the texts of versions are read as versions. -/
theorem isSome_parse?_iff {s : String} : (parse? s).isSome ↔ Written s := by
  rw [parse?, Option.isSome_map, isSome_mapM]
  simp only [isSome_readSegment]
  constructor
  · intro h
    exact ⟨_, List.splitOn_ne_nil _ _, (List.intercalate_splitOn _).symm, h⟩
  · rintro ⟨parts, hne, htrim, hparts⟩
    have hpoint : ∀ part ∈ parts, '.' ∉ part := by
      intro part hpart hmem
      exact absurd ((hparts part hpart).2.1 '.' hmem) (by decide)
    rw [htrim, List.splitOn_intercalate '.' hpoint hne]
    exact hparts

/-- A point and a zero after the text add a zero segment. -/
theorem parse?_append_zero (s : String) : parse? (Text.trimmed s ++ ".0") =
    (parse? s).map fun v => ⟨v.segments ++ [0]⟩ := by
  have htext : (Text.trimmed s ++ ".0").toList = Text.trim s.toList ++ ['.', '0'] := by
    rw [Text.trimmed, String.toList_append, String.toList_ofList]
    rfl
  have hzero : (List.splitOn '.' ['0']).mapM readSegment = some [0] := by decide
  rw [parse?, parse?, htext, Text.trim_append_zero, List.splitOn_append_cons_self,
    List.mapM_append, hzero]
  cases ((Text.trim s.toList).splitOn '.').mapM readSegment <;> rfl

theorem same_append_zero (v : Version) : Same ⟨v.segments ++ [0]⟩ v :=
  same_iff_zeros.mpr ⟨0, 1, by simp⟩

/-- What an operator on versions says of two texts. -/
def affirms (c : Comparison) (s t : String) : Bool :=
  match parse? s, parse? t with
  | some v, some w => c.holds (v.cmp w)
  | _, _ => false

/-- A text may get another segment, if that is zero. -/
theorem affirms_congr {c : Comparison} {s s' t t' : String}
    (hs : s' = s ∨ s' = Text.trimmed s ++ ".0") (ht : t' = t ∨ t' = Text.trimmed t ++ ".0") :
    affirms c s' t' = affirms c s t := by
  have hparse : ∀ {u u' : String}, u' = u ∨ u' = Text.trimmed u ++ ".0" →
      (parse? u = none ∧ parse? u' = none) ∨
        ∃ v v', parse? u = some v ∧ parse? u' = some v' ∧ v'.Same v := by
    rintro u u' (rfl | rfl)
    · cases parse? u' with
      | none => exact Or.inl ⟨rfl, rfl⟩
      | some v => exact Or.inr ⟨v, v, rfl, rfl, equivalence_same.refl v⟩
    · rw [parse?_append_zero]
      cases parse? u with
      | none => exact Or.inl ⟨rfl, rfl⟩
      | some v => exact Or.inr ⟨v, _, rfl, rfl, same_append_zero v⟩
  unfold affirms
  rcases hparse hs with ⟨h, h'⟩ | ⟨v, v', h, h', hv⟩
  · rw [h, h']
  · rcases hparse ht with ⟨k, k'⟩ | ⟨w, w', k, k', hw⟩
    · rw [h, h', k, k']
    · rw [h, h', k, k']
      exact congrArg c.holds (cmp_congr hv hw)

theorem affirms_of_not_written {s t : String} (h : ¬ (Written s ∧ Written t)) (c : Comparison) :
    affirms c s t = false := by
  rw [← isSome_parse?_iff, ← isSome_parse?_iff] at h
  unfold affirms
  cases hv : parse? s with
  | none => rfl
  | some v =>
      cases hw : parse? t with
      | none => rfl
      | some w => exact absurd ⟨by rw [hv]; rfl, by rw [hw]; rfl⟩ h

end Version

/-! ## Operators -/

namespace Operator

/-- The names of the operators on versions. -/
def onVersions : List String := ["ver=", "ver!=", "ver>", "ver>=", "ver<", "ver<="]

theorem exists_comparison {name : String} (h : name ∈ onVersions) :
    ∃ c, ofName? name = some (.version c) := by
  simp only [onVersions, List.mem_cons, List.not_mem_nil, or_false] at h
  rcases h with rfl | rfl | rfl | rfl | rfl | rfl
  exacts [⟨.eq, by decide⟩, ⟨.ne, by decide⟩, ⟨.gt, by decide⟩, ⟨.ge, by decide⟩,
    ⟨.lt, by decide⟩, ⟨.le, by decide⟩]

end Operator

/-- Answers of the operators on versions that go by an order: one text is before the other, or they
are equal, or it is after it, and the names of the other operators say what they mean. -/
structure Version.Trichotomy (holds : String → Bool) : Prop where
  one : [holds "ver<", holds "ver=", holds "ver>"].count true = 1
  le : holds "ver<=" = (holds "ver<" || holds "ver=")
  ge : holds "ver>=" = (holds "ver>" || holds "ver=")
  ne : holds "ver!=" = !holds "ver="

/-- Operators that go by one and the same comparison divide as they should. -/
theorem Version.trichotomy_of_comparison {holds : String → Bool} {o : Ordering}
    (h : ∀ {name c}, Operator.ofName? name = some (.version c) → holds name = c.holds o) :
    Trichotomy holds := by
  have hlt : holds "ver<" = (o == .lt) := h (c := .lt) (by decide)
  have heq : holds "ver=" = (o == .eq) := h (c := .eq) (by decide)
  have hgt : holds "ver>" = (o == .gt) := h (c := .gt) (by decide)
  constructor
  · rw [hlt, heq, hgt]
    cases o <;> rfl
  · rw [h (c := .le) (by decide), hlt, heq]
    cases o <;> rfl
  · rw [h (c := .ge) (by decide), hgt, heq]
    cases o <;> rfl
  · rw [h (c := .ne) (by decide), heq]
    rfl

theorem Evaluator.holds_version {name : String} {c : Comparison}
    (hname : Operator.ofName? name = some (.version c)) {ctx : Context} {a b : Expr} {s t : String}
    (ha : a.operandText ctx = some s) (hb : b.operandText ctx = some t) (ev : Evaluator) :
    (ev.holds ctx (.call name [a, b])).1 = Version.affirms c s t := by
  have hop : (Operator.version c).family ≠ .logic := nofun
  rw [holds_operands hname hop, Version.affirms]
  cases hv : Version.parse? s <;> cases hw : Version.parse? t <;>
    simp [applyToOperands, ha, hb, hv, hw]

/-- Versions are in lexicographic order, which is linear up to zeros at the end, and the operators
on versions go by that order.  Two texts of versions are in exactly one of the three relations, the
other operators follow, and a zero segment more at the end changes nothing.  Of any other texts no
operator holds. -/
theorem versions_ordered :
    (∀ v w : Version, (v.cmp w = .lt ↔ v.Precedes w) ∧ (v.cmp w = .gt ↔ w.Precedes v) ∧
      (v.Same w ↔
        ∃ m n, v.segments ++ List.replicate m 0 = w.segments ++ List.replicate n 0)) ∧
    (∀ v : Version, v.Le v) ∧
    (∀ v w : Version, v.Le w → w.Le v → v.Same w) ∧
    (∀ u v w : Version, u.Le v → v.Le w → u.Le w) ∧
    (∀ v w : Version, v.Le w ∨ w.Le v) ∧
    Equivalence Version.Same ∧
    (∀ v v' w w' : Version, v.Same v' → w.Same w' → v.cmp w = v'.cmp w') ∧
    ∀ (ev : Evaluator) (ctx : Context) (a b : Expr) (s t : String),
      a.operandText ctx = some s → b.operandText ctx = some t →
      let holds name := (ev.holds ctx (.call name [a, b])).1
      (Version.Written s ∧ Version.Written t →
        (∃ v w, Version.parse? s = some v ∧ Version.parse? t = some w ∧
          (holds "ver<" = true ↔ v.Precedes w) ∧ (holds "ver=" = true ↔ v.Same w) ∧
          (holds "ver>" = true ↔ w.Precedes v)) ∧
        Version.Trichotomy holds ∧
        ∀ a' b' s' t', a'.operandText ctx = some s' → b'.operandText ctx = some t' →
          (s' = s ∨ s' = Text.trimmed s ++ ".0") → (t' = t ∨ t' = Text.trimmed t ++ ".0") →
          ∀ name ∈ Operator.onVersions, (ev.holds ctx (.call name [a', b'])).1 = holds name) ∧
      (¬ (Version.Written s ∧ Version.Written t) →
        ∀ name ∈ Operator.onVersions, holds name = false) := by
  refine ⟨fun v w => ⟨Version.cmp_eq_lt_iff, Version.cmp_eq_gt_iff, Version.same_iff_zeros⟩,
    fun v => Version.le_iff.mpr le_rfl, fun _ _ => Version.le_antisymm,
    fun _ _ _ => Version.le_trans, Version.le_total, Version.equivalence_same,
    fun _ _ _ _ => Version.cmp_congr, ?_⟩
  intro ev ctx a b s t ha hb holds
  have hholds : ∀ {name c}, Operator.ofName? name = some (.version c) →
      holds name = Version.affirms c s t := fun hname => ev.holds_version hname ha hb
  constructor
  · rintro ⟨hs, ht⟩
    obtain ⟨v, hv⟩ := Option.isSome_iff_exists.mp (Version.isSome_parse?_iff.mpr hs)
    obtain ⟨w, hw⟩ := Option.isSome_iff_exists.mp (Version.isSome_parse?_iff.mpr ht)
    have hcmp : ∀ {name c}, Operator.ofName? name = some (.version c) →
        holds name = c.holds (v.cmp w) := fun hname => by
      rw [hholds hname, Version.affirms, hv, hw]
    have hlt : holds "ver<" = (v.cmp w == .lt) := hcmp (c := .lt) (by decide)
    have heq : holds "ver=" = (v.cmp w == .eq) := hcmp (c := .eq) (by decide)
    have hgt : holds "ver>" = (v.cmp w == .gt) := hcmp (c := .gt) (by decide)
    refine ⟨⟨v, w, hv, hw, ?_, ?_, ?_⟩, Version.trichotomy_of_comparison hcmp, ?_⟩
    · rw [hlt, beq_iff_eq, Version.cmp_eq_lt_iff]
    · rw [heq, beq_iff_eq, Version.Same]
    · rw [hgt, beq_iff_eq, Version.cmp_eq_gt_iff]
    · intro a' b' s' t' ha' hb' hs' ht' name hname
      obtain ⟨c, hc⟩ := Operator.exists_comparison hname
      rw [ev.holds_version hc ha' hb', hholds hc]
      exact Version.affirms_congr hs' ht'
  · intro hwritten name hname
    obtain ⟨c, hc⟩ := Operator.exists_comparison hname
    rw [hholds hc]
    exact Version.affirms_of_not_written hwritten c

/-- The version of a client with blanks around it is after another one, of which it does not matter
whether a zero stands at its end; the order is not that of the texts. -/
theorem versions_ordered_padded :
    let ctx := Context.empty.set (.client .appVersion) " 1.10 "
    let holds (t name : String) :=
      (Evaluator.fresh.holds ctx (.call name [.symbol "APP_VERSION", .literal (.string t)])).1
    Version.Written " 1.10 " ∧ Version.Written "1.9" ∧ Version.Trichotomy (holds "1.9") ∧
      holds "1.9" "ver>" = true ∧ holds "1.9.0" "ver>" = holds "1.9" "ver>" ∧
      holds "1.x" "ver!=" = false := by
  have hafter : (Evaluator.fresh.holds (Context.empty.set (.client .appVersion) " 1.10 ")
      (.call "ver>" [.symbol "APP_VERSION", .literal (.string "1.9")])).1 = true := by cbv
  intro ctx holds
  have happ : (Expr.symbol "APP_VERSION").operandText ctx = some " 1.10 " := by cbv
  have hwritten : Version.Written " 1.10 " ∧ Version.Written "1.9" :=
    ⟨Version.isSome_parse?_iff.mp (by cbv), Version.isSome_parse?_iff.mp (by cbv)⟩
  have hnot : ¬ Version.Written "1.x" := by
    rw [← Version.isSome_parse?_iff]
    decide
  obtain ⟨-, -, -, -, -, -, -, hoperators⟩ := versions_ordered
  obtain ⟨hboth, -⟩ :=
    hoperators .fresh ctx _ (.literal (.string "1.9")) _ "1.9" happ rfl
  obtain ⟨-, htrichotomy, hzero⟩ := hboth hwritten
  obtain ⟨-, hneither⟩ :=
    hoperators .fresh ctx _ (.literal (.string "1.x")) _ "1.x" happ rfl
  have hgt : "ver>" ∈ Operator.onVersions := by decide
  refine ⟨hwritten.1, hwritten.2, htrichotomy, hafter, ?_, ?_⟩
  · exact hzero _ (.literal (.string "1.9.0")) _ "1.9.0" happ rfl (Or.inl rfl)
      (Or.inr (by decide)) _ hgt
  · exact hneither (fun h => hnot h.2) _ (by decide)

end RemoteConfig
