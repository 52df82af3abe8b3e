import RemoteConfig.Proofs.Fields
import RemoteConfig.Proofs.Isolation
import RemoteConfig.Proofs.Lookup
/-! # Truncation at the depth limit

Templates may refer to each other in any way, in circles too, so fields could be nested without end.
The depth limit cuts them off.  It does so without touching anything else: with a smaller limit an
app has the fields that it has with a larger one, without the nested fields below that level.  What
makes this true is that the fields of an app have different names.  Otherwise a template could hide
another field of its name, and uncover it where it is left out. -/

namespace RemoteConfig

open Evaluator

/-! ## Levels of fields -/

namespace Resolved

/-- A value without the nested fields below a level; nothing if it is nested where no level is
left. -/
def truncate? : (levels : Nat) → Resolved → Option Resolved
  | _, scalar value => some (scalar value)
  | 0, nested _ => none
  | levels + 1, nested fields =>
    some (nested (fields.filterMap fun field => (truncate? levels field.2).map (field.1, ·)))

mutual
/-- How many levels of fields are nested in a value. -/
def depth : Resolved → Nat
  | scalar _ => 0
  | nested fields => fieldsDepth fields + 1

def fieldsDepth : Fields → Nat
  | [] => 0
  | (_, value) :: rest => max value.depth (fieldsDepth rest)
end

theorem fieldsDepth_le_iff {fields : Fields} {n : Nat} :
    fieldsDepth fields ≤ n ↔ ∀ field ∈ fields, field.2.depth ≤ n := by
  induction fields with
  | nil => simp [fieldsDepth]
  | cons field rest ih => simp [fieldsDepth, ih]

/-- Where fields are nested at all, one of them is as deep as they are together. -/
theorem exists_depth_eq {fields : Fields} (h : 0 < fieldsDepth fields) :
    ∃ field ∈ fields, field.2.depth = fieldsDepth fields := by
  by_contra hnone
  have hbelow : fieldsDepth fields ≤ fieldsDepth fields - 1 := by
    rw [fieldsDepth_le_iff]
    intro field hfield
    have hle : field.2.depth ≤ fieldsDepth fields := fieldsDepth_le_iff.mp le_rfl field hfield
    have hne : field.2.depth ≠ fieldsDepth fields := fun heq => hnone ⟨field, hfield, heq⟩
    omega
  omega

end Resolved

namespace Fields

open Resolved

/-- Fields without what is nested below a level. -/
def truncate (levels : Nat) (fields : Fields) : Fields :=
  fields.filterMap fun field => (field.2.truncate? levels).map (field.1, ·)

theorem mem_truncate {levels : Nat} {fields : Fields} {name : String} {value : Resolved} :
    (name, value) ∈ fields.truncate levels ↔
      ∃ whole, (name, whole) ∈ fields ∧ whole.truncate? levels = some value := by
  simp only [truncate, List.mem_filterMap, Option.map_eq_some_iff]
  constructor
  · rintro ⟨⟨name', whole⟩, hmem, value', hvalue, heq⟩
    cases heq
    exact ⟨whole, hmem, hvalue⟩
  · rintro ⟨whole, hmem, hvalue⟩
    exact ⟨(name, whole), hmem, value, hvalue, rfl⟩

end Fields

namespace Resolved

theorem truncate?_nested (levels : Nat) (fields : Fields) :
    truncate? (levels + 1) (nested fields) = some (nested (fields.truncate levels)) := rfl

theorem truncate?_scalar (levels : Nat) (value : Scalar) :
    truncate? levels (scalar value) = some (scalar value) := by
  cases levels <;> rfl

/-- What is left is nested no deeper than the level. -/
theorem depth_le_of_truncate? : ∀ {levels : Nat} {value out : Resolved},
    value.truncate? levels = some out → out.depth ≤ levels
  | levels, scalar value, out, h => by
      rw [truncate?_scalar] at h
      cases h
      exact Nat.zero_le levels
  | levels + 1, nested fields, out, h => by
      rw [truncate?_nested] at h
      cases h
      rw [depth]
      refine Nat.succ_le_succ (fieldsDepth_le_iff.mpr ?_)
      rintro ⟨name, inner⟩ hmem
      obtain ⟨whole, -, hinner⟩ := Fields.mem_truncate.mp hmem
      exact depth_le_of_truncate? hinner

/-- What is nested no deeper than the level is left as it is. -/
theorem truncate?_of_depth_le : ∀ {levels : Nat} {value : Resolved}, value.depth ≤ levels →
    value.truncate? levels = some value
  | levels, scalar value, _ => truncate?_scalar levels value
  | 0, nested fields, h => by
      rw [depth] at h
      omega
  | levels + 1, nested fields, h => by
      rw [depth] at h
      have hfields := fieldsDepth_le_iff.mp (Nat.le_of_succ_le_succ h)
      have hkept : Fields.truncate levels fields = fields := by
        unfold Fields.truncate
        rw [List.filterMap_congr (g := some), List.filterMap_some]
        intro field hfield
        rw [truncate?_of_depth_le (hfields field hfield)]
        rfl
      rw [truncate?_nested, hkept]

end Resolved

namespace Fields

open Resolved

variable {levels : Nat} {fields fields' : Fields}

theorem depth_truncate_le (levels : Nat) (fields : Fields) :
    fieldsDepth (fields.truncate levels) ≤ levels := by
  rw [fieldsDepth_le_iff]
  rintro ⟨name, value⟩ hmem
  obtain ⟨whole, -, hvalue⟩ := mem_truncate.mp hmem
  exact depth_le_of_truncate? hvalue

theorem truncate_of_depth_le (h : fieldsDepth fields ≤ levels) :
    fields.truncate levels = fields := by
  have hnested : depth (nested fields) ≤ levels + 1 := by
    rw [depth]
    exact Nat.succ_le_succ h
  have hkept := truncate?_of_depth_le hnested
  rw [truncate?_nested] at hkept
  exact nested.inj (Option.some.inj hkept)

theorem pairwise_truncate (h : fields.Pairwise fun a b => a.1 < b.1) (levels : Nat) :
    (fields.truncate levels).Pairwise fun a b => a.1 < b.1 := by
  refine h.filterMap _ ?_
  rintro a b hlt a' ha b' hb
  obtain ⟨_, -, rfl⟩ := Option.map_eq_some_iff.mp ha
  obtain ⟨_, -, rfl⟩ := Option.map_eq_some_iff.mp hb
  exact hlt

/-- Fields in order are the same if they have the same members. -/
theorem eq_of_mem_iff (h : fields.Pairwise fun a b => a.1 < b.1)
    (h' : fields'.Pairwise fun a b => a.1 < b.1)
    (hmem : ∀ field, field ∈ fields ↔ field ∈ fields') :
    fields = fields' := by
  have hsorted : Std.Antisymm fun a b : String × Resolved => a.1 < b.1 :=
    ⟨fun a b hab hba => absurd hab (lt_asymm hba)⟩
  have hirrefl : Std.Irrefl fun a b : String × Resolved => a.1 < b.1 := ⟨fun a => lt_irrefl a.1⟩
  exact List.Subset.antisymm_of_pairwise h h' (fun field => (hmem field).mp)
    fun field => (hmem field).mpr

end Fields

/-! ## Snapshots -/

namespace Snapshot

open Resolved

variable {s : Snapshot} {ctx : Context}

/-- The configs of any one app have different field names. -/
def DistinctFields (s : Snapshot) : Prop :=
  ∀ appKey, (s.appConfigs appKey).Pairwise fun c d => c.entry.fieldName ≠ d.entry.fieldName

theorem DistinctFields.pairwise_activeValues (h : s.DistinctFields) (appKey : String) :
    (s.activeValues appKey).Pairwise fun a b => a.1 ≠ b.1 := by
  refine (h appKey).filterMap _ ?_
  rintro c d hne a ha b hb
  split at ha
  · split at hb
    · obtain ⟨_, -, rfl⟩ := Option.map_eq_some_iff.mp ha
      obtain ⟨_, -, rfl⟩ := Option.map_eq_some_iff.mp hb
      exact hne
    · cases hb
  · cases ha

/-- Whatever the changes, it is enough that stored configs of one app have different field names. -/
theorem distinctFields_applyAll (changes : List Change)
    (h : (empty.applyAll changes).configs.values.Pairwise fun c d =>
      c.entry.appKey = d.entry.appKey → c.entry.fieldName ≠ d.entry.fieldName) :
    (empty.applyAll changes).DistinctFields := by
  intro appKey
  refine List.Pairwise.sublist ((Truthful.empty.applyAll changes).appConfigs_sublist appKey) ?_
  refine (h.filter _).imp_of_mem ?_
  intro c d hc hd hne
  have happ := of_decide_eq_true (List.mem_filter.mp hc).2
  have happ' := of_decide_eq_true (List.mem_filter.mp hd).2
  exact hne (happ.trans happ'.symm)

/-! ## One app -/

/-- Only what a template gives depends on the level. -/
theorem valueFor_eq_scalar (ctx : Context) {value : ConfigValue} (h : ∀ key, value ≠ .template key) :
    ∃ v, ∀ levels, s.valueFor ctx levels value = some (.scalar v) := by
  cases value with
  | template key => exact absurd rfl (h key)
  | string s => exact ⟨_, fun _ => rfl⟩
  | int n => exact ⟨_, fun _ => rfl⟩
  | float x => exact ⟨_, fun _ => rfl⟩
  | code r => exact ⟨_, fun _ => rfl⟩

/-- The keys of the apps that the templates of an app refer to. -/
def templateTargets (s : Snapshot) (appKey : String) : List String :=
  (s.activeValues appKey).filterMap fun (_, value) =>
    match value with
    | .template key => (s.findApp? key).map App.key
    | _ => none

/-- An app inlines another one directly. -/
def Inlines (s : Snapshot) (outer inner : String) : Prop := inner ∈ s.templateTargets outer

theorem inlines_of_template {outer field key : String} {a : App}
    (hmem : (field, ConfigValue.template key) ∈ s.activeValues outer)
    (ha : s.findApp? key = some a) : s.Inlines outer a.key := by
  refine List.mem_filterMap.mpr ⟨_, hmem, ?_⟩
  simp only [ha, Option.map_some]

/-- A nested value is what an app gives that is inlined. -/
theorem exists_inlines_of_nested {levels : Nat} {appKey name : String} {inner : Fields}
    (hs : s.DistinctFields)
    (h : (name, nested inner) ∈ (s.resolve ctx levels .fresh appKey).1) :
    ∃ levels' key, levels = levels' + 1 ∧ s.Inlines appKey key ∧
      inner = (s.resolve ctx levels' .fresh key).1 := by
  obtain ⟨value, hmem, hvalue⟩ :=
    (mem_resolve_iff sound_fresh (hs.pairwise_activeValues appKey)).mp h
  by_cases htemplate : ∃ key, value = .template key
  · obtain ⟨key, rfl⟩ := htemplate
    cases levels with
    | zero => cases hvalue
    | succ levels =>
        rw [valueFor_template_succ] at hvalue
        obtain ⟨a, ha, hinner⟩ := Option.map_eq_some_iff.mp hvalue
        exact ⟨levels, a.key, rfl, inlines_of_template hmem ha, (nested.inj hinner).symm⟩
  · obtain ⟨v, hscalar⟩ := s.valueFor_eq_scalar ctx (not_exists.mp htemplate)
    cases (hscalar levels).symm.trans hvalue

/-- A chain of apps, each of which inlines the next one, is as long as fields are nested. -/
theorem exists_chain (ctx : Context) (hs : s.DistinctFields) : ∀ (levels : Nat) (appKey : String),
    ∃ chain : List String, List.IsChain s.Inlines (appKey :: chain) ∧
      chain.length = fieldsDepth (s.resolve ctx levels .fresh appKey).1 := by
  intro levels
  induction levels with
  | zero =>
      intro appKey
      refine ⟨[], .singleton _, ?_⟩
      by_contra hne
      obtain ⟨⟨name, value⟩, hfield, hdepth⟩ := exists_depth_eq (Nat.pos_of_ne_zero (Ne.symm hne))
      cases value with
      | scalar value => exact hne hdepth
      | nested inner =>
          obtain ⟨_, _, hzero, -⟩ := exists_inlines_of_nested hs hfield
          cases hzero
  | succ levels ih =>
      intro appKey
      by_cases hflat : fieldsDepth (s.resolve ctx (levels + 1) .fresh appKey).1 = 0
      · exact ⟨[], .singleton _, hflat.symm⟩
      obtain ⟨⟨name, value⟩, hfield, hdepth⟩ := exists_depth_eq (Nat.pos_of_ne_zero hflat)
      cases value with
      | scalar value => exact absurd hdepth.symm hflat
      | nested inner =>
          obtain ⟨levels', key, hlevels, hinlines, rfl⟩ := exists_inlines_of_nested hs hfield
          obtain rfl := Nat.succ.inj hlevels
          obtain ⟨chain, hchain, hlength⟩ := ih key
          refine ⟨key :: chain, .cons_cons hinlines hchain, ?_⟩
          rw [← hdepth, List.length_cons, hlength]
          rfl

/-- What an active value gives where fewer levels are left is what it gives anyway, cut off. -/
theorem truncate?_valueFor {levels more : Nat} (h : levels ≤ more) {value : ConfigValue}
    (hinner : ∀ levels' more' key, levels = levels' + 1 → more = more' + 1 →
      Fields.truncate levels' (s.resolve ctx more' .fresh key).1 =
        (s.resolve ctx levels' .fresh key).1) :
    (s.valueFor ctx more value).bind (truncate? levels) = s.valueFor ctx levels value := by
  by_cases htemplate : ∃ key, value = .template key
  · obtain ⟨key, rfl⟩ := htemplate
    match levels, more, h with
    | 0, 0, _ => rfl
    | 0, more + 1, _ =>
        rw [valueFor_template_succ]
        cases s.findApp? key <;> rfl
    | levels + 1, more + 1, _ =>
        rw [valueFor_template_succ, valueFor_template_succ]
        cases s.findApp? key with
        | none => rfl
        | some a =>
            rw [Option.map_some, Option.bind_some, truncate?_nested,
              hinner levels more a.key rfl rfl]
            rfl
  · obtain ⟨v, hscalar⟩ := s.valueFor_eq_scalar ctx (not_exists.mp htemplate)
    rw [hscalar, hscalar, Option.bind_some, truncate?_scalar]

/-- If cutting off is right for the apps that an app inlines, it is right for the app. -/
theorem truncate_resolve_of_inner (hs : s.DistinctFields) {levels more : Nat} (h : levels ≤ more)
    (hinner : ∀ levels' more' key, levels = levels' + 1 → more = more' + 1 →
      Fields.truncate levels' (s.resolve ctx more' .fresh key).1 =
        (s.resolve ctx levels' .fresh key).1) (appKey : String) :
    Fields.truncate levels (s.resolve ctx more .fresh appKey).1 =
      (s.resolve ctx levels .fresh appKey).1 := by
  refine Fields.eq_of_mem_iff (Fields.pairwise_truncate (pairwise_resolve sound_fresh _ _) _)
    (pairwise_resolve sound_fresh _ _) ?_
  rintro ⟨name, out⟩
  have hnames := hs.pairwise_activeValues appKey
  rw [Fields.mem_truncate, mem_resolve_iff sound_fresh hnames]
  constructor
  · rintro ⟨whole, hwhole, hout⟩
    obtain ⟨value, hmem, hvalue⟩ := (mem_resolve_iff sound_fresh hnames).mp hwhole
    refine ⟨value, hmem, ?_⟩
    rw [← truncate?_valueFor h hinner, hvalue, Option.bind_some, hout]
  · rintro ⟨value, hmem, hvalue⟩
    rw [← truncate?_valueFor h hinner] at hvalue
    obtain ⟨whole, hwhole, hout⟩ := Option.bind_eq_some_iff.mp hvalue
    exact ⟨whole, (mem_resolve_iff sound_fresh hnames).mpr ⟨value, hmem, hwhole⟩, hout⟩

/-- With fewer levels an app has the same fields, cut off at the last level. -/
theorem truncate_resolve (hs : s.DistinctFields) {levels : Nat} : ∀ {more : Nat}, levels ≤ more →
    ∀ appKey, Fields.truncate levels (s.resolve ctx more .fresh appKey).1 =
      (s.resolve ctx levels .fresh appKey).1 := by
  induction levels with
  | zero => exact fun h => truncate_resolve_of_inner hs h nofun
  | succ levels ih =>
      intro more h
      refine truncate_resolve_of_inner hs h ?_
      intro levels' more' key hlevels hmore
      obtain rfl := Nat.succ.inj hlevels
      subst hmore
      exact ih (Nat.le_of_succ_le_succ h) key

/-! ## Pools -/

/-- The fields of an app for a client, on an evaluator that is borrowed from a pool. -/
def resolveOn (s : Snapshot) (p : Pool Evaluator) (ctx : Context) (levels : Nat)
    (appKey : String) : Fields := (p.use fun ev => s.resolve ctx levels ev appKey).1

/-- Whatever a pool was used for, it lends evaluators that give what new ones give. -/
theorem resolveOn_eq {history : List Lending.Event} {p : Pool Evaluator}
    (hp : p ∈ (Lending.run history).pools) (levels : Nat) (appKey : String) :
    s.resolveOn p ctx levels appKey = (s.resolve ctx levels .fresh appKey).1 := by
  have hsound : p.Sound := fun ev hev => ((Lending.bounded_run history).idle p hp ev hev).sound
  have htree := sameTree_of_eq (s := s) (fun _ => rfl) (fun _ => rfl) levels appKey
  exact (agree_resolve (.refl ctx) levels appKey htree _ _ hsound.acquire.1 sound_fresh).1

/-- The depth limit cuts off and does nothing else.  With a smaller limit an app has the fields that
it has with a larger one, without what is nested below that level, and nothing is nested deeper.  If
no chain of templates from the app is longer than the smaller limit, nothing is cut off. -/
theorem depth_limit_truncates {s : Snapshot} (hs : s.DistinctFields)
    {history history' : List Lending.Event} {p q : Pool Evaluator}
    (hp : p ∈ (Lending.run history).pools) (hq : q ∈ (Lending.run history').pools) (ctx : Context)
    (appKey : String) {levels more : Nat} (h : levels ≤ more) :
    s.resolveOn p ctx levels appKey = (s.resolveOn q ctx more appKey).truncate levels ∧
    fieldsDepth (s.resolveOn p ctx levels appKey) ≤ levels ∧
    ((∀ chain : List String, List.IsChain s.Inlines (appKey :: chain) → chain.length ≤ levels) →
      s.resolveOn p ctx levels appKey = s.resolveOn q ctx more appKey) := by
  rw [resolveOn_eq hp, resolveOn_eq hq, ← truncate_resolve hs h]
  refine ⟨rfl, Fields.depth_truncate_le levels _, fun hshort => ?_⟩
  obtain ⟨chain, hchain, hlength⟩ := exists_chain ctx hs more appKey
  exact Fields.truncate_of_depth_le (hlength ▸ hshort chain hchain)

/-- An app and a template that inline each other, where the template inlines itself too, and an app
that inlines a template without templates. -/
def circular : Snapshot := empty.applyAll [
  .upsert (.app ⟨"A", "app", .real, "s1", 0, 0⟩),
  .upsert (.app ⟨"T", "template", .template, "s2", 0, 0⟩),
  .upsert (.app ⟨"B", "other", .real, "s3", 0, 0⟩),
  .upsert (.app ⟨"U", "leaf", .template, "s4", 0, 0⟩),
  .upsert (.config ⟨"a", "A", "panel", "T", .template, .active⟩),
  .upsert (.config ⟨"b", "A", "title", "x", .string, .active⟩),
  .upsert (.config ⟨"c", "T", "again", "template", .template, .active⟩),
  .upsert (.config ⟨"d", "T", "back", "A", .template, .active⟩),
  .upsert (.config ⟨"e", "T", "size", "7", .int, .active⟩),
  .upsert (.config ⟨"f", "B", "leaf", "U", .template, .active⟩),
  .upsert (.config ⟨"g", "U", "size", "8", .int, .active⟩)]

/-- With one level instead of two the circle is cut off earlier.  Where one level is enough, it
makes no difference. -/
theorem depth_limit_truncates_circular : circular.DistinctFields ∧
    ∃ p ∈ (Lending.run Lending.relending).pools,
      (circular.resolveOn p .empty 2 "A").toJson.print =
        "\x7b\"panel\":\x7b\"again\":\x7b\"size\":7\x7d,\"back\":\x7b\"title\":\"x\"\x7d," ++
          "\"size\":7\x7d,\"title\":\"x\"\x7d" ∧
      (circular.resolveOn p .empty 1 "A").toJson.print =
        "\x7b\"panel\":\x7b\"size\":7\x7d,\"title\":\"x\"\x7d" ∧
      circular.resolveOn p .empty 1 "A" = (circular.resolveOn p .empty 2 "A").truncate 1 ∧
      circular.resolveOn p .empty 1 "B" = circular.resolveOn p .empty 2 "B" ∧
      (circular.resolveOn p .empty 1 "B").toJson.print = "\x7b\"leaf\":\x7b\"size\":8\x7d\x7d" := by
  have hs : circular.DistinctFields := distinctFields_applyAll _ (by decide +kernel)
  let p := (Lending.run Lending.relending).pools.get ⟨0, by decide +kernel⟩
  have hp : p ∈ (Lending.run Lending.relending).pools := List.get_mem _ _
  have hone : 1 ≤ 2 := by decide
  refine ⟨hs, p, hp, by decide +kernel, by decide +kernel,
    (depth_limit_truncates hs hp hp .empty "A" hone).1,
    (depth_limit_truncates hs hp hp .empty "B" hone).2.2 ?_, by decide +kernel⟩
  have hB : ∀ inner, circular.Inlines "B" inner → inner = "U" := by
    intro inner h
    rw [Inlines, show circular.templateTargets "B" = ["U"] by decide +kernel] at h
    exact List.mem_singleton.mp h
  have hU : ∀ inner, ¬circular.Inlines "U" inner := by
    intro inner h
    rw [Inlines, show circular.templateTargets "U" = [] by decide +kernel] at h
    exact List.not_mem_nil h
  intro chain hchain
  match chain with
  | [] => exact Nat.zero_le 1
  | [_] => exact le_rfl
  | inner :: next :: rest =>
      obtain ⟨hinner, hrest⟩ := List.isChain_cons_cons.mp hchain
      obtain ⟨hnext, -⟩ := List.isChain_cons_cons.mp hrest
      exact absurd (hB inner hinner ▸ hnext) (hU next)

end Snapshot

end RemoteConfig
