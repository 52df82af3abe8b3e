import Mathlib.Data.List.Basic
import RemoteConfig.Client.Context
/-! # Query parameters

The fields of a context are filled one by one from a list of parameters, and only what a field holds
so far tells whether an alias may fill it.  Seen as a whole, a field gets the first of these values
that is not blank: the last one under its canonical name, then those under its alias that come after
it.  So an alias can fill in for a canonical value that is blank, but only from behind it, and then
the order of the list shows. -/

namespace RemoteConfig

/-- The first text that is not empty; if all are empty, the empty text. -/
def firstFilled : List String → String
  | [] => ""
  | s :: rest => if s = "" then firstFilled rest else s

theorem firstFilled_cons_of_ne {s : String} (h : s ≠ "") (rest : List String) :
    firstFilled (s :: rest) = s := if_neg h

@[simp]
theorem firstFilled_cons_empty (rest : List String) : firstFilled ("" :: rest) = firstFilled rest :=
  if_pos rfl

theorem firstFilled_eq_empty {values : List String} :
    firstFilled values = "" ↔ ∀ s ∈ values, s = "" := by
  induction values with
  | nil => simp [firstFilled]
  | cons s rest ih =>
      by_cases h : s = ""
      · subst h
        simp [ih]
      · simp [firstFilled_cons_of_ne h, h]

namespace ContextField

/-! ## Names -/

theorem mem_all (field : ContextField) : field ∈ all := by
  rcases field with a | _
  · cases a <;> decide
  · decide

/-- No name stands for two fields. -/
theorem ofParameter?_name : ∀ field ∈ all, ofParameter? field.name = some (field, true) := by
  decide

theorem ofParameter?_shortName : ∀ field ∈ all, ∀ name ∈ field.shortName?,
    ofParameter? name = some (field, false) := by
  decide

/-- No alias is the canonical name of a field. -/
theorem shortName?_ne_name : ∀ field ∈ all, ∀ name ∈ field.shortName?, ∀ other ∈ all,
    other.name ≠ name := by decide

/-- A parameter names a field by the canonical name, by the alias, or not at all. -/
theorem ofParameter?_cases (field : ContextField) (name : String) :
    (name = field.name ∧ ofParameter? name = some (field, true)) ∨
    (name ≠ field.name ∧ field.shortName? = some name ∧ ofParameter? name = some (field, false)) ∨
    (name ≠ field.name ∧ field.shortName? ≠ some name ∧
      ∀ canonical, ofParameter? name ≠ some (field, canonical)) := by
  by_cases hname : name = field.name
  · subst hname
    exact Or.inl ⟨rfl, ofParameter?_name field field.mem_all⟩
  by_cases hshort : field.shortName? = some name
  · exact Or.inr (Or.inl ⟨hname, hshort, ofParameter?_shortName field field.mem_all name hshort⟩)
  refine Or.inr (Or.inr ⟨hname, hshort, fun canonical h => ?_⟩)
  unfold ofParameter? at h
  split at h
  · rename_i found hfound
    cases h
    have hfieldName : field.name = name := by simpa using List.find?_some hfound
    exact hname hfieldName.symm
  · obtain ⟨found, hfound, heq⟩ := Option.map_eq_some_iff.mp h
    cases heq
    exact hshort (by simpa using List.find?_some hfound)

/-! ## What a list says of a field -/

/-- The values under the canonical name of a field, without the blanks at their ends. -/
def canonicalValues (field : ContextField) (params : List (String × String)) : List String :=
  params.filterMap fun p => if p.1 = field.name then some (Text.trimmed p.2) else none

/-- The values under the alias of a field, without the blanks at their ends. -/
def shortValues (field : ContextField) (params : List (String × String)) : List String :=
  params.filterMap fun p => if field.shortName? = some p.1 then some (Text.trimmed p.2) else none

/-- Whether a parameter has a canonical name. -/
def isCanonical (p : String × String) : Bool := all.any fun field => p.1 = field.name

/-- Whether a parameter has an alias for its name. -/
def isShort (p : String × String) : Bool := all.any fun field => field.shortName? = some p.1

variable (field : ContextField)

theorem canonicalValues_cons (p : String × String) (rest : List (String × String)) :
    field.canonicalValues (p :: rest) =
      if p.1 = field.name then Text.trimmed p.2 :: field.canonicalValues rest
      else field.canonicalValues rest := by
  unfold canonicalValues
  rw [List.filterMap_cons]
  by_cases h : p.1 = field.name <;> simp [h]

theorem shortValues_append (before after : List (String × String)) :
    field.shortValues (before ++ after) = field.shortValues before ++ field.shortValues after :=
  List.filterMap_append

theorem canonicalValues_append (before after : List (String × String)) :
    field.canonicalValues (before ++ after) =
      field.canonicalValues before ++ field.canonicalValues after := List.filterMap_append

variable {field} in
theorem mem_shortValues_cons {s : String} {p : String × String} {rest : List (String × String)}
    (h : s ∈ field.shortValues rest) : s ∈ field.shortValues (p :: rest) := by
  rw [← List.singleton_append, shortValues_append]
  exact List.mem_append_right _ h

theorem canonicalValues_filter (params : List (String × String)) :
    field.canonicalValues (params.filter isCanonical) = field.canonicalValues params := by
  unfold canonicalValues
  rw [List.filterMap_filter]
  refine List.filterMap_congr fun p _ => ?_
  by_cases h : p.1 = field.name
  · have hcanonical : isCanonical p = true :=
      List.any_eq_true.mpr ⟨field, field.mem_all, decide_eq_true h⟩
    rw [if_pos hcanonical]
  · simp [h]

theorem shortValues_filter (params : List (String × String)) :
    field.shortValues (params.filter isShort) = field.shortValues params := by
  unfold shortValues
  rw [List.filterMap_filter]
  refine List.filterMap_congr fun p _ => ?_
  by_cases h : field.shortName? = some p.1
  · have hshort : isShort p = true :=
      List.any_eq_true.mpr ⟨field, field.mem_all, decide_eq_true h⟩
    rw [if_pos hshort]
  · simp [h]

variable (params : List (String × String))

theorem filter_isShort_filter_isCanonical : (params.filter isCanonical).filter isShort = [] := by
  rw [List.filter_filter, List.filter_eq_nil_iff]
  rintro p - h
  simp only [isShort, isCanonical, Bool.and_eq_true, List.any_eq_true, decide_eq_true_eq] at h
  obtain ⟨⟨field, hfield, hshort⟩, other, hother, hname⟩ := h
  exact shortName?_ne_name field hfield p.1 hshort other hother hname.symm

theorem filter_isCanonical_filter_isShort : (params.filter isShort).filter isCanonical = [] := by
  rw [List.filter_filter]
  rw [← filter_isShort_filter_isCanonical params, List.filter_filter]
  exact List.filter_congr fun p _ => Bool.and_comm _ _

theorem shortValues_filter_isCanonical : field.shortValues (params.filter isCanonical) = [] := by
  rw [← shortValues_filter, filter_isShort_filter_isCanonical]
  rfl

theorem canonicalValues_filter_isShort : field.canonicalValues (params.filter isShort) = [] := by
  rw [← canonicalValues_filter, filter_isCanonical_filter_isShort]
  rfl

end ContextField

namespace Context

open ContextField

variable {ctx : Context} {field : ContextField} {name value : String}

/-! ## One parameter -/

theorem value_set (ctx : Context) (field other : ContextField) (s : String) :
    (ctx.set other s).value field = if field = other then s else ctx.value field := rfl

theorem value_addParameter_name (ctx : Context) (field : ContextField) (value : String) :
    (ctx.addParameter field.name value).value field = Text.trimmed value := by
  simp [addParameter, ofParameter?_name field field.mem_all, value_set]

/-- A parameter without the canonical name of a field fills the field if it has the alias, and if
the field is still empty. -/
theorem value_addParameter_of_ne (hname : name ≠ field.name) :
    (ctx.addParameter name value).value field =
      if field.shortName? = some name ∧ ctx.value field = "" then Text.trimmed value
      else ctx.value field := by
  rcases ofParameter?_cases field name with ⟨hsame, -⟩ | ⟨-, hshort, hfound⟩ | ⟨-, hshort, hother⟩
  · exact absurd hsame hname
  · simp only [addParameter, hfound, hshort, Bool.false_or, true_and, String.isEmpty_iff]
    split
    · rw [value_set, if_pos rfl]
    · rfl
  · rw [if_neg fun h => hshort h.1, addParameter]
    split
    · rename_i found canonical hfound
      have hne : field ≠ found := by
        rintro rfl
        exact hother canonical hfound
      split
      · rw [value_set, if_neg hne]
      · rfl
    · rfl

/-! ## Lists of parameters -/

/-- Takes in parameters one by one. -/
def addParameters (ctx : Context) (params : List (String × String)) : Context :=
  params.foldl (fun ctx p => ctx.addParameter p.1 p.2) ctx

/-- Without canonical names in the list, a field keeps what it holds, or gets the first value of its
alias that is not blank. -/
theorem value_addParameters {params : List (String × String)} :
    ∀ {ctx : Context}, field.canonicalValues params = [] →
      (ctx.addParameters params).value field =
        firstFilled (ctx.value field :: field.shortValues params) := by
  induction params with
  | nil =>
      intro ctx _
      by_cases h : ctx.value field = ""
      · simp [addParameters, shortValues, h, firstFilled]
      · rw [firstFilled_cons_of_ne h]
        rfl
  | cons p rest ih =>
      intro ctx hnone
      have hname : p.1 ≠ field.name := by
        intro hname
        simp [canonicalValues_cons, hname] at hnone
      have hrest : field.canonicalValues rest = [] := by
        simpa [canonicalValues_cons, hname] using hnone
      have hstep : (ctx.addParameters (p :: rest)).value field =
          firstFilled ((ctx.addParameter p.1 p.2).value field :: field.shortValues rest) := ih hrest
      rw [hstep, value_addParameter_of_ne hname]
      by_cases hshort : field.shortName? = some p.1
      · by_cases hempty : ctx.value field = ""
        · simp [shortValues, hshort, hempty]
        · simp [shortValues, hshort, hempty, firstFilled_cons_of_ne]
      · simp [shortValues, hshort]

theorem ofParameters_append (before after : List (String × String)) :
    ofParameters (before ++ after) = (ofParameters before).addParameters after :=
  List.foldl_append

theorem value_ofParameters_of_nil {params : List (String × String)}
    (h : field.canonicalValues params = []) :
    (ofParameters params).value field = firstFilled (field.shortValues params) := by
  have hvalue : (ofParameters params).value field =
      firstFilled (empty.value field :: field.shortValues params) := value_addParameters h
  rw [hvalue]
  exact firstFilled_cons_empty _

/-- What counts is the last canonical value, and what the alias brings behind it. -/
theorem value_ofParameters_of_last (before : List (String × String)) (value : String)
    {after : List (String × String)} (h : field.canonicalValues after = []) :
    (ofParameters (before ++ (field.name, value) :: after)).value field =
      firstFilled (Text.trimmed value :: field.shortValues after) := by
  rw [ofParameters_append]
  have hvalue : ((ofParameters before).addParameters ((field.name, value) :: after)).value field =
      firstFilled (((ofParameters before).addParameter field.name value).value field ::
        field.shortValues after) := value_addParameters h
  rw [hvalue, value_addParameter_name]

/-- The last canonical value of a list is followed by no other one. -/
theorem exists_of_getLast? {params : List (String × String)} {last : String}
    (h : (field.canonicalValues params).getLast? = some last) :
    ∃ before value after, params = before ++ (field.name, value) :: after ∧
      Text.trimmed value = last ∧ field.canonicalValues after = [] := by
  induction params with
  | nil => cases h
  | cons p rest ih =>
      cases hrest : field.canonicalValues rest with
      | nil =>
          by_cases hname : p.1 = field.name
          · have hlast : Text.trimmed p.2 = last := by
              simpa [canonicalValues_cons, hname, hrest] using h
            exact ⟨[], p.2, rest, by rw [← hname]; rfl, hlast, hrest⟩
          · simp [canonicalValues_cons, hname, hrest] at h
      | cons first others =>
          have hlater : (field.canonicalValues rest).getLast? = some last := by
            rw [← h, canonicalValues_cons, hrest]
            split
            · rfl
            · rfl
          obtain ⟨before, value, after, rfl, hvalue, hafter⟩ := ih hlater
          exact ⟨p :: before, value, after, rfl, hvalue, hafter⟩

/-- If no alias fills in for a blank canonical value, the last canonical value of a field wins. -/
theorem value_ofParameters_eq {params : List (String × String)}
    (h : (field.canonicalValues params).getLast? = some "" →
      firstFilled (field.shortValues params) = "") :
    (ofParameters params).value field =
      (field.canonicalValues params).getLast?.getD (firstFilled (field.shortValues params)) := by
  cases hlast : (field.canonicalValues params).getLast? with
  | none => exact value_ofParameters_of_nil (List.getLast?_eq_none_iff.mp hlast)
  | some last =>
      obtain ⟨before, value, after, rfl, rfl, hafter⟩ := exists_of_getLast? hlast
      rw [value_ofParameters_of_last before value hafter, Option.getD_some]
      by_cases hblank : Text.trimmed value = ""
      · have hshort := h (hblank ▸ hlast)
        rw [hblank, firstFilled_cons_empty, firstFilled_eq_empty]
        rw [firstFilled_eq_empty, shortValues_append] at hshort
        exact fun s hs => hshort s (List.mem_append_right _ (mem_shortValues_cons hs))
      · exact firstFilled_cons_of_ne hblank _

/-! ## Interleavings -/

/-- Two lists with the same canonical parameters and the same aliases, each in the same order. -/
structure Interleaves (params other : List (String × String)) : Prop where
  canonical : params.filter isCanonical = other.filter isCanonical
  short : params.filter isShort = other.filter isShort

namespace Interleaves

variable {params other : List (String × String)}

theorem canonicalValues_eq (h : Interleaves params other) (field : ContextField) :
    field.canonicalValues other = field.canonicalValues params := by
  rw [← canonicalValues_filter, ← h.canonical, canonicalValues_filter]

theorem shortValues_eq (h : Interleaves params other) (field : ContextField) :
    field.shortValues other = field.shortValues params := by
  rw [← shortValues_filter, ← h.short, shortValues_filter]

/-- All canonical parameters, and then all aliases. -/
theorem canonical_first (params : List (String × String)) :
    Interleaves params (params.filter isCanonical ++ params.filter isShort) where
  canonical := by
    rw [List.filter_append, filter_isCanonical_filter_isShort, List.append_nil, List.filter_filter]
    simp only [Bool.and_self]
  short := by
    rw [List.filter_append, filter_isShort_filter_isCanonical, List.nil_append, List.filter_filter]
    simp only [Bool.and_self]

/-- All aliases, and then all canonical parameters. -/
theorem short_first (params : List (String × String)) :
    Interleaves params (params.filter isShort ++ params.filter isCanonical) where
  canonical := by
    rw [List.filter_append, filter_isCanonical_filter_isShort, List.nil_append, List.filter_filter]
    simp only [Bool.and_self]
  short := by
    rw [List.filter_append, filter_isShort_filter_isCanonical, List.append_nil, List.filter_filter]
    simp only [Bool.and_self]

end Interleaves

section Order

variable {params : List (String × String)}

/-- A blank canonical value leaves the field to the alias if all canonical parameters come first. -/
theorem value_canonical_first (hblank : (field.canonicalValues params).getLast? = some "") :
    (ofParameters (params.filter isCanonical ++ params.filter isShort)).value field =
      firstFilled (field.shortValues params) := by
  rw [← canonicalValues_filter] at hblank
  obtain ⟨before, value, after, hsplit, hvalue, hafter⟩ := exists_of_getLast? hblank
  have hshort : field.shortValues after = [] := by
    have hall := field.shortValues_filter_isCanonical params
    rw [hsplit, shortValues_append, List.append_eq_nil_iff] at hall
    exact List.eq_nil_iff_forall_not_mem.mpr fun s hs =>
      List.eq_nil_iff_forall_not_mem.mp hall.2 s (mem_shortValues_cons hs)
  have hnone : field.canonicalValues (after ++ params.filter isShort) = [] := by
    rw [canonicalValues_append, hafter, canonicalValues_filter_isShort, List.append_nil]
  rw [hsplit, List.append_assoc, List.cons_append, value_ofParameters_of_last before value hnone,
    hvalue, firstFilled_cons_empty, shortValues_append, hshort, List.nil_append,
    shortValues_filter]

/-- If all aliases come first, a blank canonical value leaves the field empty. -/
theorem value_short_first (hblank : (field.canonicalValues params).getLast? = some "") :
    (ofParameters (params.filter isShort ++ params.filter isCanonical)).value field = "" := by
  rw [← canonicalValues_filter] at hblank
  obtain ⟨before, value, after, hsplit, hvalue, hafter⟩ := exists_of_getLast? hblank
  have hshort : firstFilled (field.shortValues after) = "" := by
    rw [firstFilled_eq_empty]
    intro s hs
    have hall := field.shortValues_filter_isCanonical params
    rw [hsplit, shortValues_append] at hall
    exact absurd (List.mem_append_right _ (mem_shortValues_cons hs)) (hall ▸ List.not_mem_nil)
  rw [hsplit, ← List.append_assoc, value_ofParameters_of_last _ value hafter, hvalue,
    firstFilled_cons_empty, hshort]

/-- The order in which aliases stand among canonical parameters shows exactly if an alias can fill
in for a blank canonical value. -/
theorem order_irrelevant_iff :
    (∀ other, Interleaves params other → ofParameters other = ofParameters params) ↔
      ∀ field : ContextField, (field.canonicalValues params).getLast? = some "" →
        firstFilled (field.shortValues params) = "" := by
  constructor
  · intro h field hblank
    rw [← value_canonical_first hblank, h _ (.canonical_first params),
      ← h _ (.short_first params), value_short_first hblank]
  · intro h other hother
    have hvalues : (ofParameters other).value = (ofParameters params).value := by
      funext field
      have hfield := h field
      rw [value_ofParameters_eq hfield]
      rw [← hother.canonicalValues_eq, ← hother.shortValues_eq] at hfield ⊢
      exact value_ofParameters_eq hfield
    exact congrArg Context.mk hvalues

end Order

/-- The canonical name of a field wins over its alias unless its last value is blank.  Then the
alias fills in if it comes later, and without a canonical parameter it fills the field wherever it
stands: its first value counts that is not blank.  So the order of aliases and canonical parameters
does not matter, as long as no field has both a blank last canonical value and an alias with another
one. -/
theorem parameter_precedence (params : List (String × String)) :
    (∀ field : ContextField,
      (∀ last, (field.canonicalValues params).getLast? = some last → last ≠ "" →
        (ofParameters params).value field = last) ∧
      (∀ before value after, params = before ++ (field.name, value) :: after →
        field.canonicalValues after = [] → Text.trimmed value = "" →
          (ofParameters params).value field = firstFilled (field.shortValues after)) ∧
      (field.canonicalValues params = [] →
        (ofParameters params).value field = firstFilled (field.shortValues params))) ∧
    ((∀ other, Interleaves params other → ofParameters other = ofParameters params) ↔
      ∀ field : ContextField, (field.canonicalValues params).getLast? = some "" →
        firstFilled (field.shortValues params) = "") := by
  refine ⟨fun field => ⟨?_, ?_, value_ofParameters_of_nil⟩, order_irrelevant_iff⟩
  · intro last hlast hfilled
    have hwins : (field.canonicalValues params).getLast? = some "" →
        firstFilled (field.shortValues params) = "" := fun hblank =>
      absurd (Option.some.inj (hlast.symm.trans hblank)) hfilled
    rw [value_ofParameters_eq hwins, hlast, Option.getD_some]
  · rintro before value after rfl hafter hblank
    rw [value_ofParameters_of_last before value hafter, hblank, firstFilled_cons_empty]

/-- A blank app behind a filled one, two languages around an alias of another field, an operating
system that is named by its alias only, and a version under both names. -/
def mixedParameters : List (String × String) :=
  [("app", "early"), ("v", "1.0"), ("app_key", "shop"), ("app_key", " "), ("lang", "de"),
    ("app", "\t"), ("app", " late "), ("lang", "en"), ("osv", ""), ("osv", "ios"),
    ("app_version", " 2.0 "), ("v", "3.0")]

theorem parameter_precedence_mixedParameters :
    (ofParameters mixedParameters).value (.client .appVersion) = "2.0" ∧
    (ofParameters mixedParameters).value (.client .lang) = "en" ∧
    (ofParameters mixedParameters).value (.client .appKey) = "late" ∧
    (ofParameters mixedParameters).value (.client .osType) = "ios" ∧
    ∃ other, Interleaves mixedParameters other ∧
      ofParameters other ≠ ofParameters mixedParameters := by
  obtain ⟨hfields, horder⟩ := parameter_precedence mixedParameters
  refine ⟨?_, ?_, ?_, ?_, ?_⟩
  · exact (hfields (.client .appVersion)).1 "2.0" (by decide +kernel) (by decide)
  · exact (hfields (.client .lang)).1 "en" (by decide +kernel) (by decide)
  · have hlate := (hfields (.client .appKey)).2.1 (mixedParameters.take 3) " "
      (mixedParameters.drop 4) rfl (by decide +kernel) (by decide +kernel)
    rw [hlate]
    decide +kernel
  · rw [(hfields (.client .osType)).2.2 (by decide +kernel)]
    decide +kernel
  · by_contra hnone
    push Not at hnone
    exact absurd (horder.mp hnone (.client .appKey) (by decide +kernel)) (by decide +kernel)

/-- A canonical parameter that is blank does not keep an alias behind it from filling the field, and
before it the same alias is overwritten. -/
theorem not_canonical_always_wins :
    (¬ ∀ (params : List (String × String)) (field : ContextField),
      (ofParameters params).value field =
        (field.canonicalValues params).getLast?.getD (firstFilled (field.shortValues params))) ∧
    ¬ ∀ params other, Interleaves params other → ofParameters other = ofParameters params := by
  have hblank : ((ContextField.client .appKey).canonicalValues
      [("app_key", " "), ("app", "demo")]).getLast? = some "" := by decide +kernel
  constructor
  · intro h
    have hempty := h [("app_key", " "), ("app", "demo")] (.client .appKey)
    rw [hblank, Option.getD_some] at hempty
    exact absurd hempty (by decide +kernel)
  · intro h
    have hempty := order_irrelevant_iff.mp (h [("app_key", " "), ("app", "demo")]) _ hblank
    exact absurd hempty (by decide +kernel)

end Context

end RemoteConfig
