import RemoteConfig.Proofs.Fingerprint
import RemoteConfig.Proofs.Truncation
/-! # Places of inlined templates

The signs of the templates of an app are gathered by a walk that resolves nothing.  All the same it
comes wherever resolution comes: for every nested value among the fields of the app, at any depth,
it finds the sign of the template that gave this value.  The two go by different orders, the walk by
the keys of the configs and resolution by the names of the fields.  What they have in common are
places: a place is a way through the configs, which has the keys and the names on it. -/

namespace RemoteConfig

open Evaluator

/-! ## Nested values -/

namespace Resolved

mutual
/-- All that is nested in a value, each with the names that lead to it. -/
def nestings : Resolved → List (List String × Fields)
  | scalar _ => []
  | nested fields => ([], fields) :: fieldsNestings fields

def fieldsNestings : Fields → List (List String × Fields)
  | [] => []
  | (name, value) :: rest => value.nestings.map (Prod.map (name :: ·) id) ++ fieldsNestings rest
end

/-- What is nested in one field. -/
def fieldNestings (field : String × Resolved) : List (List String × Fields) :=
  field.2.nestings.map (Prod.map (field.1 :: ·) id)

theorem fieldsNestings_eq_flatMap (fields : Fields) :
    fieldsNestings fields = fields.flatMap fieldNestings := by
  induction fields with
  | nil => rfl
  | cons field rest ih =>
      rw [fieldsNestings, ih, List.flatMap_cons]
      rfl

theorem fieldNestings_nested (name : String) (fields : Fields) :
    fieldNestings (name, nested fields) =
      ([name], fields) :: (fieldsNestings fields).map (Prod.map (name :: ·) id) := rfl

end Resolved

namespace Fields

open Resolved

variable {fields : Fields} {name : String} {value : Resolved}

theorem insert_perm (hnew : ∀ other ∈ fields, other.1 ≠ name) :
    (fields.insert name value).Perm ((name, value) :: fields) := by
  induction fields with
  | nil => exact .refl _
  | cons first rest ih =>
      have hfirst : name ≠ first.1 := Ne.symm (hnew first List.mem_cons_self)
      rw [insert, if_neg hfirst]
      split
      · exact .refl _
      · have hrest := ih fun other hother => hnew other (List.mem_cons_of_mem _ hother)
        exact (hrest.cons first).trans (.swap ..)

/-- Fields of different new names are entered without loss, in whatever order. -/
theorem insertAll_perm {rows : List (String × Resolved)}
    (hrows : rows.Pairwise fun a b => a.1 ≠ b.1)
    (hnew : ∀ other ∈ fields, ∀ row ∈ rows, other.1 ≠ row.1) :
    (fields.insertAll rows).Perm (fields ++ rows) := by
  induction rows generalizing fields with
  | nil => rw [List.append_nil]; exact .refl _
  | cons row rows ih =>
      obtain ⟨hrow, hrest⟩ := List.pairwise_cons.mp hrows
      have hinsert : (fields.insert row.1 row.2).Perm (row :: fields) :=
        insert_perm fun other hother => hnew other hother row List.mem_cons_self
      have hnext : ∀ other ∈ fields.insert row.1 row.2, ∀ row' ∈ rows, other.1 ≠ row'.1 := by
        intro other hother row' hrow'
        rcases List.mem_cons.mp (hinsert.mem_iff.mp hother) with rfl | hother
        · exact hrow row' hrow'
        · exact hnew other hother row' (List.mem_cons_of_mem _ hrow')
      rw [insertAll_cons]
      exact (ih hrest hnext).trans ((hinsert.append_right rows).trans List.perm_middle.symm)

end Fields

namespace Snapshot

open Resolved

variable {s : Snapshot} {ctx : Context}

/-! ## Places -/

/-- The configs of an app with their keys, in the order of the keys. -/
def configRows (s : Snapshot) (appKey : String) : List (String × CompiledConfig) :=
  (s.appConfigKeys[appKey]?.getD ∅).toList.filterMap fun key => s.configs[key]?.map (key, ·)

/-- The name and the value of a config that is active and could be decoded. -/
def activeValue? (c : CompiledConfig) : Option (String × ConfigValue) :=
  if c.entry.isActive then c.value.toOption.map (c.entry.fieldName, ·) else none

/-- The app that a value refers to, if it is a template and there is such an app. -/
def templateOf? (s : Snapshot) : ConfigValue → Option App
  | .template key => s.findApp? key
  | _ => none

/-- The app that a config inlines, if it inlines one. -/
def template? (s : Snapshot) (c : CompiledConfig) : Option App :=
  (activeValue? c).bind fun row => s.templateOf? row.2

/-- A way through the configs to an app that is inlined. -/
structure Place where
  /-- The keys of the configs on the way. -/
  keys : List String
  /-- Their field names. -/
  names : List String
  template : App

/-- A place as it is seen from the app to which a config belongs that leads there. -/
def Place.under (row : String × CompiledConfig) (place : Place) : Place :=
  ⟨row.1 :: place.keys, row.2.entry.fieldName :: place.names, place.template⟩

/-- The places to which the configs of an app lead.  Each config on the way inlines the app whose
config is the next one. -/
inductive Leads (s : Snapshot) : String → Place → Prop
  | direct {appKey : String} {row : String × CompiledConfig} {a : App}
      (hrow : row ∈ s.configRows appKey) (ha : s.template? row.2 = some a) :
      Leads s appKey ⟨[row.1], [row.2.entry.fieldName], a⟩
  | under {appKey : String} {row : String × CompiledConfig} {a : App} {place : Place}
      (hrow : row ∈ s.configRows appKey) (ha : s.template? row.2 = some a)
      (h : Leads s a.key place) : Leads s appKey (place.under row)

/-- The places below one config. -/
def placesBelow (below : String → List Place) (s : Snapshot) (row : String × CompiledConfig) :
    List Place :=
  match s.template? row.2 with
  | some a => ⟨[row.1], [row.2.entry.fieldName], a⟩ :: (below a.key).map (.under row)
  | none => []

/-- All places in an app, down to the given level. -/
def places (s : Snapshot) : (levels : Nat) → String → List Place
  | 0, _ => []
  | levels + 1, appKey => (s.configRows appKey).flatMap (s.placesBelow (places s levels))

theorem map_snd_configRows (s : Snapshot) (appKey : String) :
    (s.configRows appKey).map Prod.snd = s.appConfigs appKey := by
  rw [configRows, appConfigs, List.map_filterMap]
  refine List.filterMap_congr fun key _ => ?_
  rw [Option.map_map]
  exact Option.map_id'

theorem activeValues_eq_filterMap (s : Snapshot) (appKey : String) :
    s.activeValues appKey = (s.configRows appKey).filterMap fun row => activeValue? row.2 := by
  rw [activeValues, ← map_snd_configRows, List.filterMap_map]
  rfl

theorem pairwise_configRows (s : Snapshot) (appKey : String) :
    (s.configRows appKey).Pairwise fun a b => a.1 < b.1 := by
  refine Std.ExtTreeSet.ordered_toList.filterMap _ ?_
  rintro key key' hlt row hrow row' hrow'
  obtain ⟨_, -, rfl⟩ := Option.map_eq_some_iff.mp hrow
  obtain ⟨_, -, rfl⟩ := Option.map_eq_some_iff.mp hrow'
  exact compare_lt_iff_lt.mp hlt

/-! ## The walk -/

/-- The walk comes to the apps that are inlined. -/
theorem map_template_places : ∀ (levels : Nat) (appKey : String),
    (s.places levels appKey).map (·.template) = s.inlined levels appKey
  | 0, _ => rfl
  | levels + 1, appKey => by
      rw [places, inlined, activeValues_eq_filterMap, List.map_flatMap,
        List.filterMap_eq_flatMap_toList, List.flatMap_assoc]
      refine List.flatMap_congr fun row _ => ?_
      rw [placesBelow, template?]
      cases activeValue? row.2 with
      | none => rfl
      | some active =>
          obtain ⟨name, value⟩ := active
          rw [Option.bind_some, Option.toList_some, List.flatMap_singleton]
          cases value with
          | template key =>
              simp only [templateOf?]
              cases s.findApp? key with
              | none => rfl
              | some a =>
                  simp only [List.map_cons, List.map_map, ← map_template_places levels a.key]
                  rfl
          | _ => rfl

theorem leads_of_mem_places {place : Place} : ∀ {levels : Nat} {appKey : String},
    place ∈ s.places levels appKey → s.Leads appKey place
  | 0, _, h => absurd h List.not_mem_nil
  | levels + 1, appKey, h => by
      obtain ⟨row, hrow, hplace⟩ := List.mem_flatMap.mp h
      rw [placesBelow] at hplace
      cases ha : s.template? row.2 with
      | none =>
          rw [ha] at hplace
          exact absurd hplace List.not_mem_nil
      | some a =>
          rw [ha] at hplace
          rcases List.mem_cons.mp hplace with rfl | hinner
          · exact .direct hrow ha
          · obtain ⟨inner, hbelow, rfl⟩ := List.mem_map.mp hinner
            exact .under hrow ha (leads_of_mem_places hbelow)

theorem Leads.keys_ne_nil {appKey : String} {place : Place} (h : s.Leads appKey place) :
    place.keys ≠ [] := by
  cases h with
  | direct => exact List.cons_ne_nil _ _
  | under => exact List.cons_ne_nil _ _

/-- The places below a config have its key in front. -/
theorem exists_keys_of_mem_placesBelow {below : String → List Place}
    {row : String × CompiledConfig} {place : Place} (h : place ∈ s.placesBelow below row) :
    ∃ rest, place.keys = row.1 :: rest := by
  rw [placesBelow] at h
  split at h
  · rcases List.mem_cons.mp h with rfl | hinner
    · exact ⟨[], rfl⟩
    · obtain ⟨inner, -, rfl⟩ := List.mem_map.mp hinner
      exact ⟨inner.keys, rfl⟩
  · exact absurd h List.not_mem_nil

/-- The walk comes to a template before it comes to what that inlines, and to all of this before it
goes on to the next config. -/
theorem pairwise_places : ∀ (levels : Nat) (appKey : String),
    (s.places levels appKey).Pairwise fun a b => a.keys < b.keys
  | 0, _ => .nil
  | levels + 1, appKey => by
      refine List.pairwise_flatMap.mpr ⟨fun row _ => ?_, ?_⟩
      · rw [placesBelow]
        split
        · rename_i a _
          refine .cons ?_ (List.pairwise_map.mpr ?_)
          · intro place hplace
            obtain ⟨inner, hinner, rfl⟩ := List.mem_map.mp hplace
            obtain ⟨key, rest, hkeys⟩ :=
              List.exists_cons_of_ne_nil (leads_of_mem_places hinner).keys_ne_nil
            rw [Place.under, hkeys]
            exact List.cons_lt_cons_self.mpr (List.nil_lt_cons key rest)
          · refine (pairwise_places levels a.key).imp ?_
            exact fun hlt => List.cons_lt_cons_self.mpr hlt
        · exact .nil
      · refine (s.pairwise_configRows appKey).imp ?_
        intro row row' hlt place hplace place' hplace'
        obtain ⟨rest, hkeys⟩ := exists_keys_of_mem_placesBelow hplace
        obtain ⟨rest', hkeys'⟩ := exists_keys_of_mem_placesBelow hplace'
        rw [hkeys, hkeys']
        exact List.cons_lt_cons_iff.mpr (Or.inl hlt)

/-! ## Resolution -/

/-- What is nested in the field that a config gives. -/
def rowNestings (s : Snapshot) (ctx : Context) (levels : Nat) (row : String × CompiledConfig) :
    List (List String × Fields) :=
  let field? := (activeValue? row.2).bind fun active =>
    (s.valueFor ctx levels active.2).map (active.1, ·)
  field?.toList.flatMap fieldNestings

/-- What is nested in the fields of an app is what its configs give, each on its own. -/
theorem fieldsNestings_resolve (hs : s.DistinctFields) (levels : Nat) (appKey : String) :
    (fieldsNestings (s.resolve ctx levels .fresh appKey).1).Perm
      ((s.configRows appKey).flatMap (s.rowNestings ctx levels)) := by
  have hnames : (s.rowsFor ctx levels (s.activeValues appKey)).Pairwise fun a b => a.1 ≠ b.1 := by
    refine (hs.pairwise_activeValues appKey).filterMap _ ?_
    rintro row row' hne out hout out' hout'
    obtain ⟨_, -, rfl⟩ := Option.map_eq_some_iff.mp hout
    obtain ⟨_, -, rfl⟩ := Option.map_eq_some_iff.mp hout'
    exact hne
  have hrows : (s.rowsFor ctx levels (s.activeValues appKey)).flatMap fieldNestings =
      (s.configRows appKey).flatMap (s.rowNestings ctx levels) := by
    rw [rowsFor, activeValues_eq_filterMap, List.filterMap_filterMap,
      List.filterMap_eq_flatMap_toList, List.flatMap_assoc]
    rfl
  rw [fst_resolve sound_fresh, fieldsNestings_eq_flatMap, ← hrows]
  have hperm := Fields.insertAll_perm hnames (List.forall_mem_nil _)
  rw [List.nil_append] at hperm
  exact hperm.flatMap_right _

/-- A config without a template gives nothing nested. -/
theorem rowNestings_of_template?_none {levels : Nat} {row : String × CompiledConfig}
    (h : s.template? row.2 = none) : s.rowNestings ctx levels row = [] := by
  rw [template?] at h
  rw [rowNestings]
  cases hactive : activeValue? row.2 with
  | none => rfl
  | some active =>
      obtain ⟨name, value⟩ := active
      rw [hactive, Option.bind_some] at h
      dsimp only [Option.bind_some]
      by_cases htemplate : ∃ key, value = .template key
      · obtain ⟨key, rfl⟩ := htemplate
        have hfind : s.findApp? key = none := h
        cases levels with
        | zero => rfl
        | succ levels =>
            rw [valueFor_template_succ, hfind]
            rfl
      · obtain ⟨v, hscalar⟩ := s.valueFor_eq_scalar ctx (not_exists.mp htemplate)
        rw [hscalar]
        rfl

/-- Where no level is left, nothing is nested. -/
theorem rowNestings_zero (row : String × CompiledConfig) : s.rowNestings ctx 0 row = [] := by
  rw [rowNestings]
  cases activeValue? row.2 with
  | none => rfl
  | some active =>
      obtain ⟨name, value⟩ := active
      cases value <;> rfl

/-- A config with a template gives what the template gives, and all that is nested in this. -/
theorem rowNestings_of_template? {levels : Nat} {row : String × CompiledConfig} {a : App}
    (h : s.template? row.2 = some a) : s.rowNestings ctx (levels + 1) row =
      fieldNestings (row.2.entry.fieldName, .nested (s.resolve ctx levels .fresh a.key).1) := by
  obtain ⟨⟨name, value⟩, hactive, htemplate⟩ := Option.bind_eq_some_iff.mp h
  have hname : name = row.2.entry.fieldName := by
    unfold activeValue? at hactive
    split at hactive
    · obtain ⟨_, -, heq⟩ := Option.map_eq_some_iff.mp hactive
      exact (congrArg Prod.fst heq).symm
    · cases hactive
  cases value with
  | template key =>
      have hfind : s.findApp? key = some a := htemplate
      rw [rowNestings, hactive]
      dsimp only [Option.bind_some]
      rw [valueFor_template_succ, hfind, hname]
      exact List.flatMap_singleton _ _
  | _ => cases htemplate

/-- The fields that are nested at a place in an app. -/
def nestedAt (s : Snapshot) (ctx : Context) (levels : Nat) (place : Place) : List String × Fields :=
  (place.names, (s.resolve ctx (levels - place.names.length) .fresh place.template.key).1)

theorem nestedAt_under (levels : Nat) (row : String × CompiledConfig) (place : Place) :
    s.nestedAt ctx (levels + 1) (place.under row) =
      Prod.map (row.2.entry.fieldName :: ·) id (s.nestedAt ctx levels place) := by
  rw [nestedAt, nestedAt, Place.under, List.length_cons, Nat.add_sub_add_right]
  rfl

/-- Resolution comes to the same places as the walk, to each of them once. -/
theorem places_perm (hs : s.DistinctFields) : ∀ (levels : Nat) (appKey : String),
    ((s.places levels appKey).map (s.nestedAt ctx levels)).Perm
      (fieldsNestings (s.resolve ctx levels .fresh appKey).1)
  | 0, appKey => by
      refine List.Perm.trans ?_ (fieldsNestings_resolve hs 0 appKey).symm
      rw [List.flatMap_eq_nil_iff.mpr fun row _ => rowNestings_zero row]
      exact .refl _
  | levels + 1, appKey => by
      refine List.Perm.trans ?_ (fieldsNestings_resolve hs (levels + 1) appKey).symm
      rw [places, List.map_flatMap]
      refine List.Perm.flatMap_left _ fun row _ => ?_
      rw [placesBelow]
      cases ha : s.template? row.2 with
      | none =>
          rw [rowNestings_of_template?_none ha]
          exact .refl _
      | some a =>
          rw [rowNestings_of_template? ha, fieldNestings_nested, List.map_cons, List.map_map]
          have hunder : s.nestedAt ctx (levels + 1) ∘ Place.under row =
              Prod.map (row.2.entry.fieldName :: ·) id ∘ s.nestedAt ctx levels :=
            funext (nestedAt_under levels row)
          rw [hunder, ← List.map_map]
          exact ((places_perm hs levels a.key).map _).cons _

/-- The walk and resolution come to the same places.  There is one sign for each nested value, at
any depth: that of the app which gave the value.  The signs are in the order of the ways to these
places by keys, where a way comes before those that go on from its end.  So there are no signs if
nothing is nested, and only then. -/
theorem signs_of_nestings {s : Snapshot} (hs : s.DistinctFields) {history : List Lending.Event}
    {p : Pool Evaluator} (hp : p ∈ (Lending.run history).pools) (ctx : Context) (appKey : String)
    (levels : Nat) :
    let places := s.places levels appKey
    let nestings := fieldsNestings (s.resolveOn p ctx levels appKey)
    s.templateSigns levels appKey = places.map (·.template.dataSign) ∧
    (places.map fun place => (place.names,
      s.resolveOn p ctx (levels - place.names.length) place.template.key)).Perm nestings ∧
    (∀ place ∈ places, s.Leads appKey place) ∧
    places.Pairwise (fun a b => a.keys < b.keys) ∧
    (s.templateSigns levels appKey = [] ↔ nestings = []) := by
  have hsigns : s.templateSigns levels appKey =
      (s.places levels appKey).map (·.template.dataSign) := by
    rw [templateSigns_eq_map, ← map_template_places, List.map_map]
    rfl
  have hperm : ((s.places levels appKey).map (s.nestedAt ctx levels)).Perm
      (fieldsNestings (s.resolve ctx levels .fresh appKey).1) := places_perm hs levels appKey
  have hnested : (fun place : Place => (place.names,
      s.resolveOn p ctx (levels - place.names.length) place.template.key)) =
        s.nestedAt ctx levels := funext fun place => by rw [resolveOn_eq hp, nestedAt]
  dsimp only
  rw [hnested, resolveOn_eq hp]
  refine ⟨hsigns, hperm, fun place => leads_of_mem_places, pairwise_places levels appKey, ?_⟩
  rw [hsigns, List.map_eq_nil_iff, ← List.length_eq_zero_iff, ← List.length_eq_zero_iff,
    ← hperm.length_eq, List.length_map]

/-- An app whose configs have the opposite order by keys and by names.  One of them inlines a
template that inlines itself, another one a template that inlines the app; the other two are a
template that is not in use and one that is not there. -/
def crossed : Snapshot := empty.applyAll [
  .upsert (.app ⟨"A", "app", .real, "s1", 0, 0⟩),
  .upsert (.app ⟨"T", "template", .template, "s2", 0, 0⟩),
  .upsert (.app ⟨"U", "other", .template, "s3", 0, 0⟩),
  .upsert (.config ⟨"a", "A", "zone", "T", .template, .active⟩),
  .upsert (.config ⟨"b", "A", "area", "U", .template, .active⟩),
  .upsert (.config ⟨"c", "A", "off", "T", .template, .inactive⟩),
  .upsert (.config ⟨"d", "A", "lost", "X", .template, .active⟩),
  .upsert (.config ⟨"e", "T", "self", "T", .template, .active⟩),
  .upsert (.config ⟨"f", "T", "size", "7", .int, .active⟩),
  .upsert (.config ⟨"g", "U", "back", "A", .template, .active⟩)]

/-- The signs come by keys, the nested values by names.  Where no level is left there are none. -/
theorem signs_of_nestings_crossed : crossed.DistinctFields ∧
    ∃ p ∈ (Lending.run Lending.relending).pools,
      crossed.templateSigns 2 "A" = ["s2", "s2", "s3", "s1"] ∧
      (crossed.resolveOn p .empty 2 "A").toJson.print =
        "\x7b\"area\":\x7b\"back\":\x7b\x7d\x7d," ++
          "\"zone\":\x7b\"self\":\x7b\"size\":7\x7d,\"size\":7\x7d\x7d" ∧
      (crossed.places 2 "A").map (·.names) =
        [["zone"], ["zone", "self"], ["area"], ["area", "back"]] ∧
      ((crossed.places 2 "A").map fun place => (place.names,
        crossed.resolveOn p .empty (2 - place.names.length) place.template.key)).Perm
          (fieldsNestings (crossed.resolveOn p .empty 2 "A")) ∧
      crossed.templateSigns 0 "A" = [] ∧
      fieldsNestings (crossed.resolveOn p .empty 0 "A") = [] := by
  have hs : crossed.DistinctFields := distinctFields_applyAll _ (by decide +kernel)
  let p := (Lending.run Lending.relending).pools.get ⟨0, by decide +kernel⟩
  have hp : p ∈ (Lending.run Lending.relending).pools := List.get_mem _ _
  obtain ⟨-, hperm, -⟩ := signs_of_nestings hs hp .empty "A" 2
  obtain ⟨-, -, -, -, hempty⟩ := signs_of_nestings hs hp .empty "A" 0
  exact ⟨hs, p, hp, by decide +kernel, by decide +kernel, by decide +kernel, hperm, rfl,
    hempty.mp rfl⟩

end Snapshot

end RemoteConfig
