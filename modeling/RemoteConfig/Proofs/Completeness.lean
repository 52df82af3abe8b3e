import RemoteConfig.Proofs.Fields
import RemoteConfig.Proofs.Integrity
import RemoteConfig.Proofs.Restart
/-! # Completeness of resolution

A config could be missing among the fields of its app in five ways: it is not active, it cannot be
decoded, it is a template that leads nowhere, it is a template beyond the last level, or another
config has the same field name.  What the fields of an app should be is said here without looking at
resolution, config by config.  In every state of a master the two agree: only the first way and the
fourth ever happen. -/

namespace RemoteConfig

open Evaluator

/-! ## What a config gives -/

/-- The value of the first case whose condition holds for a client, or else the fallback. -/
def Rule.chosen (ctx : Context) (r : Rule) : Scalar :=
  match r.cases.find? fun c => (Evaluator.fresh.holds ctx c.condition).1 with
  | some c => c.value
  | none => r.fallback

theorem Evaluator.fst_selectFrom (ctx : Context) (fallback : Scalar) (cases : List Case)
    {ev : Evaluator} (hev : ev.Sound) :
    (ev.selectFrom ctx fallback cases).1 = Rule.chosen ctx ⟨cases, fallback⟩ := by
  induction cases generalizing ev with
  | nil => rfl
  | cons c cases ih =>
      obtain ⟨heq, hsound, -⟩ :=
        agree_holds c.condition ((Context.SameAttributes.refl ctx).agreeOn _) ev .fresh hev sound_fresh
      dsimp only at heq hsound
      have hrest := ih hsound
      unfold Rule.chosen at hrest ⊢
      rw [selectFrom, List.find?_cons, ← heq]
      cases hholds : (ev.holds ctx c.condition).1 with
      | true => simp [hholds]
      | false => simpa [hholds] using hrest

-- the second case applies, and it is not asked whether the third one does
example : Rule.chosen .empty ⟨[⟨.literal (.bool false), .int 1⟩, ⟨.call "not" [.symbol "x"], .int 2⟩,
    ⟨.literal (.bool true), .int 3⟩], .int 4⟩ = .int 2 := by cbv

namespace ConfigValue

/-- What a decoded value gives for a client, if templates give the fields that `Inlined` says. -/
inductive Gives (ctx : Context) (Inlined : String → Fields → Prop) : ConfigValue → Resolved → Prop
  | string (s : String) : Gives ctx Inlined (.string s) (.scalar (.string s))
  | int (n : Int) : Gives ctx Inlined (.int n) (.scalar (.int n))
  | float (x : Binary64) : Gives ctx Inlined (.float x) (.scalar (.float x))
  | code (r : Rule) : Gives ctx Inlined (.code r) (.scalar (r.chosen ctx))
  | template {key : String} {fields : Fields} (h : Inlined key fields) :
      Gives ctx Inlined (.template key) (.nested fields)

theorem Gives.unique {ctx : Context} {Inlined : String → Fields → Prop}
    (hinlined : ∀ key fields fields', Inlined key fields → Inlined key fields' → fields = fields')
    {value : ConfigValue} {out out' : Resolved} (h : value.Gives ctx Inlined out)
    (h' : value.Gives ctx Inlined out') : out = out' := by
  cases h with
  | string s => cases h'; rfl
  | int n => cases h'; rfl
  | float x => cases h'; rfl
  | code r => cases h'; rfl
  | template h =>
      cases h' with
      | template h' => rw [hinlined _ _ _ h h']

/-- Texts of configs that are templates are decoded as templates, and no others. -/
theorem compile_template_iff {type : ValueType} {raw : String} {value : ConfigValue}
    (h : compile type raw = .ok value) : type = .template ↔ ∃ key, value = .template key := by
  cases type with
  | string =>
      cases h
      simp
  | int =>
      simp only [compile] at h
      split at h
      · cases h
        simp
      · cases h
  | float =>
      simp only [compile] at h
      split at h
      · cases h
        simp
      · cases h
  | code =>
      simp only [compile] at h
      split at h
      · cases h
      · split at h
        · cases h
          simp
        · cases h
  | template =>
      simp only [compile] at h
      split at h
      · cases h
      · cases h
        exact iff_of_true rfl ⟨_, rfl⟩

end ConfigValue

/-- What a config gives for a client. -/
def Config.Gives (ctx : Context) (Inlined : String → Fields → Prop) (c : Config)
    (out : Resolved) : Prop :=
  ∃ value, ConfigValue.compile c.valueType c.rawValue = .ok value ∧ value.Gives ctx Inlined out

theorem Config.Gives.unique {ctx : Context} {Inlined : String → Fields → Prop}
    (hinlined : ∀ key fields fields', Inlined key fields → Inlined key fields' → fields = fields')
    (c : Config) (out out' : Resolved) (h : c.Gives ctx Inlined out)
    (h' : c.Gives ctx Inlined out') : out = out' := by
  obtain ⟨value, hvalue, hout⟩ := h
  obtain ⟨value', hvalue', hout'⟩ := h'
  obtain rfl : value = value' := Except.ok.inj (hvalue.symm.trans hvalue')
  exact hout.unique hinlined hout'

/-! ## What an app gives -/

namespace Snapshot

/-- An active config of an app. -/
structure HasActive (s : Snapshot) (appKey : String) (c : Config) : Prop where
  stored : (s.config? c.key).map (·.entry) = some c
  home : c.appKey = appKey
  active : c.isActive = true

/-- Fields in the order of their names, which are those of the active configs of an app that are
shown; each field is what its config gives. -/
structure Collects (s : Snapshot) (appKey : String) (Shown : Config → Prop)
    (Gives : Config → Resolved → Prop) (fields : Fields) : Prop where
  ordered : fields.Pairwise fun a b => a.1 < b.1
  from_config : ∀ field ∈ fields, ∃ c, s.HasActive appKey c ∧ Shown c ∧ c.fieldName = field.1 ∧
    Gives c field.2
  all_configs : ∀ c, s.HasActive appKey c → Shown c →
    ∃ out, (c.fieldName, out) ∈ fields ∧ Gives c out

/-- All that an app has to give for a client: every active config is shown, but templates are not
where no level is left.  Where one is, a template gives all that the app of its key has to give. -/
def Complete (s : Snapshot) (ctx : Context) : (levels : Nat) → String → Fields → Prop
  | 0, appKey, fields =>
    s.Collects appKey (fun c => c.valueType ≠ .template) (Config.Gives ctx fun _ _ => False) fields
  | levels + 1, appKey, fields =>
    s.Collects appKey (fun _ => True)
      (Config.Gives ctx fun key inner => (s.app? key).isSome ∧ s.Complete ctx levels key inner)
      fields

section Unique

variable {s : Snapshot} {appKey : String} {Shown : Config → Prop}
  {Gives : Config → Resolved → Prop} {fields fields' : Fields}

theorem Collects.subset (hunique : ∀ c out out', Gives c out → Gives c out' → out = out')
    (h : s.Collects appKey Shown Gives fields) (h' : s.Collects appKey Shown Gives fields') :
    fields ⊆ fields' := by
  rintro ⟨name, out⟩ hfield
  obtain ⟨c, hc, hshown, rfl, hout⟩ := h.from_config _ hfield
  obtain ⟨out', hfield', hout'⟩ := h'.all_configs c hc hshown
  have hsame : out = out' := hunique c out out' hout hout'
  rwa [hsame]

/-- There is only one way to collect fields, if each config gives one thing at most. -/
theorem Collects.unique (hunique : ∀ c out out', Gives c out → Gives c out' → out = out')
    (h : s.Collects appKey Shown Gives fields) (h' : s.Collects appKey Shown Gives fields') :
    fields = fields' := by
  have hsorted : Std.Antisymm fun a b : String × Resolved => a.1 < b.1 :=
    ⟨fun a b hab hba => absurd hab (lt_asymm hba)⟩
  have hirrefl : Std.Irrefl fun a b : String × Resolved => a.1 < b.1 := ⟨fun a => lt_irrefl a.1⟩
  exact List.Subset.antisymm_of_pairwise h.ordered h'.ordered (h.subset hunique h')
    (h'.subset hunique h)

/-- There is only one way to give all that an app has to give. -/
theorem Complete.unique {ctx : Context} : ∀ {levels : Nat} {appKey : String}
    {fields fields' : Fields}, s.Complete ctx levels appKey fields →
      s.Complete ctx levels appKey fields' → fields = fields'
  | 0, _, _, _, h, h' => by
      unfold Complete at h h'
      exact h.unique (Config.Gives.unique fun _ _ _ => False.elim) h'
  | levels + 1, _, _, _, h, h' => by
      unfold Complete at h h'
      refine h.unique (Config.Gives.unique ?_) h'
      rintro key inner inner' ⟨-, hinner⟩ ⟨-, hinner'⟩
      exact hinner.unique hinner'

end Unique

/-! ## Active values -/

section Active

variable {s : Snapshot} {appKey : String}

theorem visible_eq_some_iff {c : CompiledConfig} {name : String} {value : ConfigValue} :
    visible appKey c = some (name, value) ↔ c.entry.appKey = appKey ∧ c.entry.isActive = true ∧
      c.value = .ok value ∧ c.entry.fieldName = name := by
  unfold visible
  cases c.value with
  | error e => simp [Except.toOption]
  | ok value' => simp [Except.toOption, and_comm]

/-- The active values of an app are those of its active configs that can be decoded. -/
theorem mem_activeValues_iff (hs : s.Coherent) (he : s.Exact) {name : String}
    {value : ConfigValue} : (name, value) ∈ s.activeValues appKey ↔
      ∃ c, s.HasActive appKey c ∧ c.fieldName = name ∧
        ConfigValue.compile c.valueType c.rawValue = .ok value := by
  simp only [he.activeValues_eq_filterMap, List.mem_filterMap, visible_eq_some_iff]
  constructor
  · rintro ⟨⟨key, c⟩, hrow, happ, hactive, hvalue, hname⟩
    have hc : s.configs[key]? = some c := Std.ExtTreeMap.mem_toList_iff_getElem?_eq_some.mp hrow
    have hstored : (s.config? c.entry.key).map (·.entry) = some c.entry := by
      rw [hs.config_key hc, config?, hc, Option.map_some]
    exact ⟨c.entry, ⟨hstored, happ, hactive⟩, hname,
      (congrArg CompiledConfig.value (hs.compiled key c hc)).symm.trans hvalue⟩
  · rintro ⟨c, ⟨hstored, happ, hactive⟩, hname, hvalue⟩
    obtain ⟨compiled, hc, rfl⟩ := Option.map_eq_some_iff.mp hstored
    exact ⟨(_, compiled), Std.ExtTreeMap.mem_toList_iff_getElem?_eq_some.mpr hc, happ, hactive,
      (congrArg CompiledConfig.value (hs.compiled _ compiled hc)).trans hvalue, hname⟩

/-- The active values of an app have different names. -/
theorem pairwise_activeValues (he : s.Exact) (hi : s.Integral) :
    (s.activeValues appKey).Pairwise fun a b => a.1 ≠ b.1 := by
  rw [he.activeValues_eq_filterMap, List.pairwise_filterMap]
  refine (Table.pairwise_toList s.configs).imp_of_mem ?_
  rintro ⟨key, c⟩ ⟨key', c'⟩ hrow hrow' hne ⟨name, value⟩ hvisible ⟨name', value'⟩ hvisible' hsame
  obtain ⟨happ, -, -, hname⟩ := visible_eq_some_iff.mp hvisible
  obtain ⟨happ', -, -, hname'⟩ := visible_eq_some_iff.mp hvisible'
  -- two rows of one app with the same field name would have the same key
  rw [Std.ExtTreeMap.mem_toList_iff_getElem?_eq_some] at hrow hrow'
  exact hne (hi.fields key key' c c' hrow hrow' (happ.trans happ'.symm)
    (hname.trans (hsame.trans hname'.symm)))

/-- Whatever is active can be decoded. -/
theorem HasActive.compiles (hs : s.Coherent) (hi : s.Integral) {c : Config}
    (h : s.HasActive appKey c) : ∃ value, ConfigValue.compile c.valueType c.rawValue = .ok value := by
  obtain ⟨compiled, hc, rfl⟩ := Option.map_eq_some_iff.mp h.stored
  obtain ⟨value, hvalue, -⟩ := hi.values _ compiled hc
  exact ⟨value, (congrArg CompiledConfig.value (hs.compiled _ compiled hc)).symm.trans hvalue⟩

/-- A template that is active gives what the app of its key resolves to, and that app exists. -/
theorem HasActive.valueFor_template (hs : s.Coherent) (hi : s.Integral) {c : Config} {key : String}
    (h : s.HasActive appKey c)
    (hkey : ConfigValue.compile c.valueType c.rawValue = .ok (.template key)) (ctx : Context)
    (levels : Nat) : (s.app? key).isSome ∧ s.valueFor ctx (levels + 1) (.template key) =
      some (.nested (s.resolve ctx levels .fresh key).1) := by
  obtain ⟨compiled, hc, rfl⟩ := Option.map_eq_some_iff.mp h.stored
  have hvalue : compiled.value = .ok (.template key) :=
    (congrArg CompiledConfig.value (hs.compiled _ compiled hc)).trans hkey
  obtain ⟨value, hvalue', htemplate⟩ := hi.values _ compiled hc
  obtain ⟨-, a, ha, -⟩ := htemplate key (Except.ok.inj (hvalue'.symm.trans hvalue))
  have happ : s.app? key = some a := ha
  have hfind : s.findApp? key = some a := by rw [findApp?, happ, Option.some_or]
  refine ⟨Option.isSome_of_mem happ, ?_⟩
  rw [valueFor_template_succ, hfind, Option.map_some, hs.app_key ha]

end Active

/-! ## Resolution is complete -/

section Complete

variable {s : Snapshot} {ctx : Context} {levels : Nat} {appKey : String}

/-- What an active value gives is right, if what it gives as a template is. -/
theorem gives_of_valueFor {Inlined : String → Fields → Prop} {value : ConfigValue} {out : Resolved}
    (hinlined : ∀ key inner, value = .template key → out = .nested inner → Inlined key inner)
    (h : s.valueFor ctx levels value = some out) : value.Gives ctx Inlined out := by
  cases value with
  | string s =>
      cases h
      exact .string s
  | int n =>
      cases h
      exact .int n
  | float x =>
      cases h
      exact .float x
  | code r =>
      cases h
      rw [fst_selectFrom ctx r.fallback r.cases sound_fresh]
      exact .code r
  | template key =>
      obtain ⟨inner, -, rfl⟩ := Option.map_eq_some_iff.mp h
      exact .template (hinlined key inner rfl rfl)

/-- Resolution collects what is shown, if exactly that gives something, and templates are right. -/
theorem collects_resolve (hs : s.Coherent) (he : s.Exact) (hi : s.Integral)
    {Shown : Config → Prop} {Inlined : String → Fields → Prop}
    (hshown : ∀ c value, s.HasActive appKey c →
      ConfigValue.compile c.valueType c.rawValue = .ok value →
        (Shown c ↔ (s.valueFor ctx levels value).isSome))
    (hinlined : ∀ c key inner, s.HasActive appKey c →
      ConfigValue.compile c.valueType c.rawValue = .ok (.template key) →
        s.valueFor ctx levels (.template key) = some (.nested inner) → Inlined key inner) :
    s.Collects appKey Shown (Config.Gives ctx Inlined) (s.resolve ctx levels .fresh appKey).1 := by
  have hfields {name : String} {out : Resolved} :=
    @mem_resolve_iff s ctx _ sound_fresh levels appKey name out (pairwise_activeValues he hi)
  have hgives {c : Config} {value : ConfigValue} {out : Resolved} (hc : s.HasActive appKey c)
      (hvalue : ConfigValue.compile c.valueType c.rawValue = .ok value)
      (hout : s.valueFor ctx levels value = some out) : c.Gives ctx Inlined out := by
    refine ⟨value, hvalue, gives_of_valueFor ?_ hout⟩
    rintro key inner rfl rfl
    exact hinlined c key inner hc hvalue hout
  refine ⟨pairwise_resolve sound_fresh levels appKey, ?_, ?_⟩
  · rintro ⟨name, out⟩ hfield
    obtain ⟨value, hmem, hout⟩ := hfields.mp hfield
    obtain ⟨c, hc, hname, hvalue⟩ := (mem_activeValues_iff hs he).mp hmem
    exact ⟨c, hc, (hshown c value hc hvalue).mpr (Option.isSome_of_mem hout), hname,
      hgives hc hvalue hout⟩
  · intro c hc hshow
    obtain ⟨value, hvalue⟩ := hc.compiles hs hi
    obtain ⟨out, hout⟩ := Option.isSome_iff_exists.mp ((hshown c value hc hvalue).mp hshow)
    have hmem := (mem_activeValues_iff hs he).mpr ⟨c, hc, rfl, hvalue⟩
    exact ⟨out, hfields.mpr ⟨value, hmem, hout⟩, hgives hc hvalue hout⟩

/-- In a snapshot that is whole, an app resolves to all that it has to give. -/
theorem complete_resolve (hs : s.Coherent) (he : s.Exact) (hi : s.Integral) :
    ∀ (levels : Nat) (appKey : String),
      s.Complete ctx levels appKey (s.resolve ctx levels .fresh appKey).1
  | 0, appKey => by
      refine collects_resolve hs he hi ?_ ?_
      · intro c value hc hvalue
        rw [ne_eq, ConfigValue.compile_template_iff hvalue, not_exists]
        constructor
        · exact isSome_valueFor
        · rintro hsome key rfl
          cases hsome
      · intro c key inner hc hvalue hout
        cases hout
  | levels + 1, appKey => by
      refine collects_resolve hs he hi ?_ ?_
      · intro c value hc hvalue
        refine iff_of_true trivial ?_
        by_cases htemplate : ∃ key, value = .template key
        · obtain ⟨key, rfl⟩ := htemplate
          exact Option.isSome_of_mem (hc.valueFor_template hs hi hvalue ctx levels).2
        · exact isSome_valueFor (not_exists.mp htemplate)
      · intro c key inner hc hvalue hout
        obtain ⟨happ, hnested⟩ := hc.valueFor_template hs hi hvalue ctx levels
        cases hnested.symm.trans hout
        exact ⟨happ, complete_resolve hs he hi levels key⟩

end Complete

end Snapshot

namespace Host

/-- Resolution loses no active config.  In every state of a master that is written by operators, the
fields of an app are all that it has to give, and nothing else is: each of its active configs is
there under its field name, with what the config gives, except for templates where no level is
left. -/
theorem resolution_complete {actions : List Action}
    (hactions : ∀ a ∈ actions, a.StartsAs .master ∧ a.ByOperators) {sv : Service}
    (hsv : (run actions).running = some sv) (ctx : Context) (levels : Nat) (appKey : String)
    (fields : Fields) :
    sv.snapshot.Complete ctx levels appKey fields ↔ fields = (sv.resolve ctx levels appKey).1 := by
  obtain ⟨-, ho⟩ := invariant_singleMaster.run hactions fun _ _ _ _ => trivial
  have hheld : (run actions).Held sv.snapshot := Or.inr ⟨sv, hsv, rfl⟩
  have hcoherent : sv.snapshot.Coherent := (ho.synced.mirrors sv hsv).coherent
  have hintegral : sv.snapshot.Integral :=
    (invariant_integral.run hactions fun _ _ _ _ => trivial).1.held _ hheld
  have hcomplete : sv.snapshot.Complete ctx levels appKey
      (sv.snapshot.resolve ctx levels .fresh appKey).1 :=
    Snapshot.complete_resolve hcoherent (ho.exact _ hheld) hintegral levels appKey
  rw [Service.fst_resolve (poolSound_run actions sv hsv)]
  constructor
  · intro h
    exact h.unique hcomplete
  · rintro rfl
    exact hcomplete

/-- An app with a text, a template and a config that is not active; the template holds a number and
another template. -/
def inliningRun : List Action :=
  [.start ⟨"http://m", .master, none, false⟩ ⟨300, 0, 2⟩ ⟨.epoch, "v0", "t0"⟩,
    .request (.write ⟨.epoch, "v1", "t1"⟩ none (.putApp "T" "outer" .template)),
    .request (.write ⟨.epoch, "v2", "t2"⟩ none (.putApp "U" "inner" .template)),
    .request (.write ⟨.epoch, "v3", "t3"⟩ none (.putApp "A" "app" .real)),
    .request (.write ⟨.epoch, "v4", "t4"⟩ none (.putConfig ⟨"a", "T", "x", "7", .int, .active⟩)),
    .request (.write ⟨.epoch, "v5", "t5"⟩ none
      (.putConfig ⟨"b", "T", "y", "U", .template, .active⟩)),
    .request (.write ⟨.epoch, "v6", "t6"⟩ none
      (.putConfig ⟨"c", "A", "t", "T", .template, .active⟩)),
    .request (.write ⟨.epoch, "v7", "t7"⟩ none
      (.putConfig ⟨"d", "A", "g", "v", .string, .active⟩)),
    .request (.write ⟨.epoch, "v8", "t8"⟩ none
      (.putConfig ⟨"e", "A", "h", "x", .string, .inactive⟩))]

/-- With one level, the template is inlined without the one that it holds. -/
theorem resolution_complete_inliningRun : ∃ sv fields, (run inliningRun).running = some sv ∧
    sv.snapshot.Complete .empty 1 "A" fields ∧
    fields.toJson.print = "\x7b\"g\":\"v\",\"t\":\x7b\"x\":7\x7d\x7d" := by
  let sv := (run inliningRun).running.get (by decide +kernel)
  have hsv : (run inliningRun).running = some sv := (Option.some_get _).symm
  have hactions : ∀ a ∈ inliningRun, a.StartsAs .master ∧ a.ByOperators := by
    simp [inliningRun, Action.StartsAs, Action.ByOperators]
  exact ⟨sv, (sv.resolve .empty 1 "A").1, hsv,
    (resolution_complete hactions hsv .empty 1 "A" _).mpr rfl, by decide +kernel⟩

end Host

end RemoteConfig
