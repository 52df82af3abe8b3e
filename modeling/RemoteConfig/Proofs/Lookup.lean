import RemoteConfig.Proofs.Index
/-! # Looking up after arbitrary changes

Whoever mutates, pushes or restores may send any changes in any order.  Whatever they are, the
derived indexes show nothing that is not there: the configs of an app are listed from among the
stored ones, and a name leads to an app of that name.  That everything stored is shown takes more,
and the two indexes fail apart from each other.  The index of configs loses entries when an app goes
before its configs do, the index of names when an app takes a name that is in use. -/

namespace RemoteConfig

open Table

namespace Snapshot

/-- The stored configs of an app, in the order of their keys. -/
def configsOf (s : Snapshot) (appKey : String) : List CompiledConfig :=
  s.configs.values.filter (·.entry.appKey = appKey)

/-- Whether an app is stored under a name. -/
def IsNamed (s : Snapshot) (name : String) : Prop := ∃ a, s.app? a.key = some a ∧ a.name = name

/-! ## Nothing is shown that is not there -/

/-- What the derived indexes say is so. -/
structure Truthful (s : Snapshot) : Prop where
  names : ∀ name key : String, s.appsByName[name]? = some key →
    ∃ a, s.apps[key]? = some a ∧ a.name = name
  configs : ∀ appKey key : String, key ∈ s.appConfigKeys[appKey]?.getD ∅ →
    ∃ c, s.configs[key]? = some c ∧ c.entry.appKey = appKey

namespace Truthful

variable {s : Snapshot}

theorem empty : Snapshot.empty.Truthful := ⟨by simp [Snapshot.empty], by simp [Snapshot.empty]⟩

/-- Under another name than that of an app that is entered, no entry is about that app. -/
theorem appsByName_upsertApp (hs : s.Truthful) {a : App} {name key : String} (hname : name ≠ a.name)
    (h : (s.upsertApp a).appsByName[name]? = some key) :
    key ≠ a.key ∧ s.appsByName[name]? = some key := by
  unfold upsertApp at h
  cases hprev : s.apps[a.key]? with
  | none =>
      simp only [hprev, getElem?_insert_ite, if_neg hname] at h
      refine ⟨?_, h⟩
      rintro rfl
      obtain ⟨b, hb, -⟩ := hs.names name a.key h
      rw [hprev] at hb
      cases hb
  | some previous =>
      simp only [hprev, getElem?_insert_ite, if_neg hname] at h
      have hkept : s.appsByName[name]? = some key ∧
          (previous.name ≠ a.name → name ≠ previous.name) := by
        split at h
        · rename_i hsame
          exact ⟨h, fun hne => absurd hsame hne⟩
        · rw [getElem?_erase_ite] at h
          split at h
          · cases h
          · rename_i hformer
            exact ⟨h, fun _ => hformer⟩
      refine ⟨?_, hkept.1⟩
      rintro rfl
      -- the app had the name before, so it has given it up
      obtain ⟨b, hb, rfl⟩ := hs.names name a.key hkept.1
      obtain rfl := Option.some.inj (hprev.symm.trans hb)
      exact hkept.2 hname rfl

theorem upsertApp (hs : s.Truthful) (a : App) : (s.upsertApp a).Truthful where
  configs := hs.configs
  names name key h := by
    have happs : (s.upsertApp a).apps[key]? = if key = a.key then some a else s.apps[key]? :=
      getElem?_insert_ite _ _ _ _
    rw [happs]
    by_cases hname : name = a.name
    · subst hname
      have hentered : (s.upsertApp a).appsByName[a.name]? = some a.key := by
        show (Std.ExtTreeMap.insert _ a.name a.key)[a.name]? = _
        rw [getElem?_insert_ite, if_pos rfl]
      obtain rfl := Option.some.inj (hentered.symm.trans h)
      exact ⟨a, if_pos rfl, rfl⟩
    · obtain ⟨hkey, h⟩ := hs.appsByName_upsertApp hname h
      rw [if_neg hkey]
      exact hs.names name key h

/-- No entry that stays is about an app that goes. -/
theorem appsByName_deleteApp (hs : s.Truthful) {key name k : String}
    (h : (s.deleteApp key).appsByName[name]? = some k) :
    k ≠ key ∧ s.appsByName[name]? = some k := by
  unfold Snapshot.deleteApp at h
  cases hgone : s.apps[key]? with
  | none =>
      simp only [hgone] at h
      refine ⟨?_, h⟩
      rintro rfl
      obtain ⟨b, hb, -⟩ := hs.names name k h
      rw [hgone] at hb
      cases hb
  | some a =>
      simp only [hgone, getElem?_erase_ite] at h
      split at h
      · cases h
      · rename_i hname
        refine ⟨?_, h⟩
        rintro rfl
        obtain ⟨b, hb, rfl⟩ := hs.names name k h
        obtain rfl := Option.some.inj (hgone.symm.trans hb)
        exact hname rfl

theorem deleteApp (hs : s.Truthful) (key : String) : (s.deleteApp key).Truthful where
  configs appKey k h := by
    change k ∈ (s.appConfigKeys.erase key)[appKey]?.getD ∅ at h
    rw [getElem?_erase_ite] at h
    split at h
    · exact absurd h Std.ExtTreeSet.not_mem_empty
    · exact hs.configs appKey k h
  names name k h := by
    have happs : (s.deleteApp key).apps[k]? = if k = key then none else s.apps[k]? :=
      getElem?_erase_ite _ _ _
    obtain ⟨hkey, h⟩ := hs.appsByName_deleteApp h
    rw [happs, if_neg hkey]
    exact hs.names name k h

/-- What is listed once a config is entered: this config under its app, and all others as before. -/
theorem appConfigKeys_upsertConfig (hs : s.Truthful) {c : Config} {appKey key : String}
    (h : key ∈ (s.upsertConfig c).appConfigKeys[appKey]?.getD ∅) :
    (appKey = c.appKey ∧ key = c.key) ∨
      (key ≠ c.key ∧ key ∈ s.appConfigKeys[appKey]?.getD ∅) := by
  unfold Snapshot.upsertConfig at h
  rw [mem_index] at h
  rcases h with h | h
  · exact Or.inl h
  -- a config that has moved is not listed under its former app any more
  have hmem : key ∈ s.appConfigKeys[appKey]?.getD ∅ ∧
      ∀ previous, s.configs[c.key]? = some previous → previous.entry.appKey ≠ c.appKey →
        ¬ (appKey = previous.entry.appKey ∧ key = c.key) := by
    split at h
    · rename_i previous hprev
      split at h
      · rename_i hsame
        refine ⟨h, fun p hp hne => ?_⟩
        obtain rfl := Option.some.inj (hprev.symm.trans hp)
        exact absurd hsame hne
      · obtain ⟨h, hother⟩ := mem_unindex.mp h
        refine ⟨h, fun p hp _ => ?_⟩
        obtain rfl := Option.some.inj (hprev.symm.trans hp)
        exact hother
    · rename_i hprev
      exact ⟨h, fun p hp => absurd (hprev.symm.trans hp) nofun⟩
  by_cases hkey : key = c.key
  · subst hkey
    obtain ⟨previous, hprev, rfl⟩ := hs.configs appKey c.key hmem.1
    by_cases hsame : previous.entry.appKey = c.appKey
    · exact Or.inl ⟨hsame, rfl⟩
    · exact absurd ⟨rfl, rfl⟩ (hmem.2 previous hprev hsame)
  · exact Or.inr ⟨hkey, hmem.1⟩

theorem upsertConfig (hs : s.Truthful) (c : Config) : (s.upsertConfig c).Truthful where
  names := hs.names
  configs appKey key h := by
    have hconfigs : (s.upsertConfig c).configs[key]? =
        if key = c.key then some c.compile else s.configs[key]? := getElem?_insert_ite _ _ _ _
    rw [hconfigs]
    rcases hs.appConfigKeys_upsertConfig h with ⟨rfl, rfl⟩ | ⟨hkey, h⟩
    · exact ⟨c.compile, if_pos rfl, rfl⟩
    · rw [if_neg hkey]
      exact hs.configs appKey key h

theorem deleteConfig (hs : s.Truthful) (key : String) : (s.deleteConfig key).Truthful := by
  unfold Snapshot.deleteConfig
  cases hgone : s.configs[key]? with
  | none => exact hs
  | some c =>
      refine ⟨hs.names, ?_⟩
      intro appKey k h
      obtain ⟨h, hother⟩ := mem_unindex.mp h
      obtain ⟨c', hc', rfl⟩ := hs.configs appKey k h
      refine ⟨c', ?_, rfl⟩
      rw [getElem?_erase_ite, if_neg, hc']
      rintro rfl
      obtain rfl := Option.some.inj (hgone.symm.trans hc')
      exact hother ⟨rfl, rfl⟩

/-- Every change keeps the indexes truthful. -/
theorem apply (hs : s.Truthful) (c : Change) : (s.apply c).Truthful := by
  rcases c with e | ⟨kind, key⟩
  · cases e with
    | app a => exact hs.upsertApp a
    | config c => exact hs.upsertConfig c
    | user u => exact ⟨hs.names, hs.configs⟩
    | webhook w => exact ⟨hs.names, hs.configs⟩
    | node n => exact ⟨hs.names, hs.configs⟩
  · cases kind with
    | app => exact hs.deleteApp key
    | config => exact hs.deleteConfig key
    | user => exact ⟨hs.names, hs.configs⟩
    | webhook => exact ⟨hs.names, hs.configs⟩
    | node => exact ⟨hs.names, hs.configs⟩

theorem applyAll (hs : s.Truthful) (changes : List Change) : (s.applyAll changes).Truthful := by
  induction changes generalizing s with
  | nil => exact hs
  | cons c rest ih => exact ih (hs.apply c)

end Truthful

/-! ## What is listed -/

variable {s : Snapshot}

theorem Truthful.mem_configs (hs : s.Truthful) {appKey key : String}
    (h : key ∈ s.appConfigKeys[appKey]?.getD ∅) : key ∈ s.configs := by
  obtain ⟨c, hc, -⟩ := hs.configs appKey key h
  rw [Std.ExtTreeMap.mem_iff_isSome_getElem?, hc]
  rfl

/-- The configs of an app are picked from all configs by the index. -/
theorem Truthful.appConfigs_eq_map (hs : s.Truthful) (appKey : String) :
    s.appConfigs appKey = (s.configs.toList.filter fun row =>
      (s.appConfigKeys[appKey]?.getD ∅).contains row.1).map Prod.snd := by
  have hstored : ∀ key ∈ s.appConfigKeys[appKey]?.getD ∅, key ∈ s.configs := fun key hkey =>
    hs.mem_configs hkey
  have hpick := filterMap_getElem? hstored some
  simp only [Option.bind_fun_some] at hpick
  rw [appConfigs, hpick, ← List.filterMap_eq_map, List.filterMap_filter]
  rfl

theorem configsOf_eq_map (s : Snapshot) (appKey : String) :
    s.configsOf appKey =
      (s.configs.toList.filter fun row => row.2.entry.appKey = appKey).map Prod.snd := by
  rw [configsOf, values_eq, List.filter_map]
  rfl

/-- Only stored configs of the app are listed, each once and in the order of their keys. -/
theorem Truthful.appConfigs_sublist (hs : s.Truthful) (appKey : String) :
    (s.appConfigs appKey).Sublist (s.configsOf appKey) := by
  rw [hs.appConfigs_eq_map, configsOf_eq_map]
  refine List.Sublist.map _ ?_
  have hnarrow : (s.configs.toList.filter fun row =>
      (s.appConfigKeys[appKey]?.getD ∅).contains row.1) =
        (s.configs.toList.filter fun row => row.2.entry.appKey = appKey).filter fun row =>
          (s.appConfigKeys[appKey]?.getD ∅).contains row.1 := by
    rw [List.filter_filter]
    refine List.filter_congr fun row hrow => ?_
    have hstored := Std.ExtTreeMap.mem_toList_iff_getElem?_eq_some.mp hrow
    cases hlisted : (s.appConfigKeys[appKey]?.getD ∅).contains row.1 with
    | false => rfl
    | true =>
        obtain ⟨c, hc, rfl⟩ := hs.configs appKey row.1 (Std.ExtTreeSet.contains_iff_mem.mp hlisted)
        obtain rfl := Option.some.inj (hc.symm.trans hstored)
        simp
  rw [hnarrow]
  exact List.filter_sublist

/-- With an index that is complete, all of them are. -/
theorem Exact.appConfigs_eq_configsOf (hs : s.Exact) (appKey : String) :
    s.appConfigs appKey = s.configsOf appKey := by
  have htruthful : s.Truthful := ⟨fun name key => (hs.names name key).mp,
    fun appKey key => (hs.configs appKey key).mp⟩
  rw [htruthful.appConfigs_eq_map, configsOf_eq_map]
  congr 1
  refine List.filter_congr fun row hrow => ?_
  have hstored := Std.ExtTreeMap.mem_toList_iff_getElem?_eq_some.mp hrow
  rw [Bool.eq_iff_iff, Std.ExtTreeSet.contains_iff_mem, hs.configs, hstored, decide_eq_true_iff]
  simp

theorem Truthful.name_of_appByName? (hs : s.Truthful) (hk : s.Coherent) {name : String} {a : App}
    (h : s.appByName? name = some a) : a.name = name ∧ s.app? a.key = some a := by
  obtain ⟨key, hkey, ha⟩ := Option.bind_eq_some_iff.mp h
  obtain ⟨b, hb, rfl⟩ := hs.names name key hkey
  obtain rfl := Option.some.inj (hb.symm.trans ha)
  rw [app?, hk.app_key ha]
  exact ⟨rfl, ha⟩

/-! ## Changes that leave an index complete

Each index is about a part of the snapshot that develops by itself. -/

/-- A change that gives no app the name of another one. -/
def SparesNames (s : Snapshot) : Change → Prop
  | .upsert (.app a) => ∀ b ∈ s.apps.values, b.name = a.name → b.key = a.key
  | _ => True

/-- A change that removes no app that has configs. -/
def SparesConfigs (s : Snapshot) : Change → Prop
  | .delete ⟨.app, key⟩ => ∀ c ∈ s.configs.values, c.entry.appKey ≠ key
  | _ => True

instance (s : Snapshot) (c : Change) : Decidable (s.SparesNames c) := by
  unfold SparesNames
  split <;> infer_instance

instance (s : Snapshot) (c : Change) : Decidable (s.SparesConfigs c) := by
  unfold SparesConfigs
  split <;> infer_instance

/-- Whether something holds of each change when its turn comes. -/
def Throughout (p : Snapshot → Change → Prop) : Snapshot → List Change → Prop
  | _, [] => True
  | s, c :: rest => p s c ∧ Throughout p (s.apply c) rest

instance decidableThroughout (p : Snapshot → Change → Prop) [∀ s c, Decidable (p s c)] :
    ∀ (s : Snapshot) (changes : List Change), Decidable (s.Throughout p changes)
  | _, [] => .isTrue trivial
  | s, c :: rest =>
    haveI := decidableThroughout p (s.apply c) rest
    inferInstanceAs (Decidable (_ ∧ _))

/-- The apps with their names. -/
def onlyApps (s : Snapshot) : Snapshot := { empty with apps := s.apps, appsByName := s.appsByName }

/-- The configs with their index. -/
def onlyConfigs (s : Snapshot) : Snapshot :=
  { empty with configs := s.configs, appConfigKeys := s.appConfigKeys }

variable {c : Change} {changes : List Change}

theorem exact_onlyApps_apply (hs : s.onlyApps.Exact) (hk : s.Coherent) (hc : s.SparesNames c) :
    (s.apply c).onlyApps.Exact := by
  rcases c with e | ⟨kind, key⟩
  · cases e with
    | app a =>
        refine hs.upsertApp (a := a) fun key b hb hname => ?_
        rw [← hk.app_key hb]
        exact hc b (mem_values.mpr ⟨key, hb⟩) hname
    | _ => exact hs
  · cases kind with
    | app =>
        have hgone : (s.onlyApps.deleteApp key).Exact :=
          hs.deleteApp fun k c hconfig => absurd hconfig (by simp [onlyApps, empty])
        exact ⟨hgone.names, by simp [onlyApps, empty]⟩
    | config =>
        show (s.deleteConfig key).onlyApps.Exact
        unfold deleteConfig
        split <;> exact hs
    | _ => exact hs

theorem exact_onlyConfigs_apply (hs : s.onlyConfigs.Exact) (hc : s.SparesConfigs c) :
    (s.apply c).onlyConfigs.Exact := by
  rcases c with e | ⟨kind, key⟩
  · cases e with
    | config c => exact hs.upsertConfig c
    | _ => exact hs
  · cases kind with
    | app =>
        have hgone : (s.onlyConfigs.deleteApp key).Exact :=
          hs.deleteApp fun k c hconfig => hc c (mem_values.mpr ⟨k, hconfig⟩)
        exact ⟨by simp [onlyConfigs, empty], hgone.configs⟩
    | config =>
        have hsame : (s.deleteConfig key).onlyConfigs = s.onlyConfigs.deleteConfig key := by
          cases hgone : s.configs[key]? <;> simp [deleteConfig, onlyConfigs, hgone]
        show (s.deleteConfig key).onlyConfigs.Exact
        rw [hsame]
        exact hs.deleteConfig key
    | _ => exact hs

/-- The index of names is complete if no app ever takes the name of another one. -/
theorem exact_onlyApps_applyAll : ∀ {changes : List Change} {s : Snapshot}, s.onlyApps.Exact →
    s.Coherent → s.Throughout SparesNames changes → (s.applyAll changes).onlyApps.Exact
  | [], _, hs, _, _ => hs
  | c :: _, s, hs, hk, ⟨hc, hrest⟩ =>
      exact_onlyApps_applyAll (s := s.apply c) (exact_onlyApps_apply hs hk hc) (hk.apply c) hrest

/-- The index of configs is complete if no app ever goes before its configs do. -/
theorem exact_onlyConfigs_applyAll : ∀ {changes : List Change} {s : Snapshot},
    s.onlyConfigs.Exact → s.Throughout SparesConfigs changes →
      (s.applyAll changes).onlyConfigs.Exact
  | [], _, hs, _ => hs
  | c :: _, s, hs, ⟨hc, hrest⟩ =>
      exact_onlyConfigs_applyAll (s := s.apply c) (exact_onlyConfigs_apply hs hc) hrest

/-! ## What look-ups give -/

/-- What look-ups give after any changes.  They never give what is not there.  The configs of an app
are all given unless an app went before its configs did, and every app is found by its name unless
an app took a name that was in use. -/
theorem lookups_after_changes (changes : List Change) :
    (∀ appKey, ((empty.applyAll changes).appConfigs appKey).Sublist
      ((empty.applyAll changes).configsOf appKey)) ∧
    (∀ name a, (empty.applyAll changes).appByName? name = some a →
      a.name = name ∧ (empty.applyAll changes).app? a.key = some a) ∧
    (empty.Throughout SparesConfigs changes → ∀ appKey,
      (empty.applyAll changes).appConfigs appKey = (empty.applyAll changes).configsOf appKey) ∧
    (empty.Throughout SparesNames changes → ∀ name,
      ((empty.applyAll changes).appByName? name).isSome ↔
        (empty.applyAll changes).IsNamed name) := by
  have htruthful := Truthful.empty.applyAll changes
  have hcoherent := coherent_empty.applyAll changes
  refine ⟨htruthful.appConfigs_sublist, fun name a => htruthful.name_of_appByName? hcoherent,
    ?_, ?_⟩
  · intro hspares appKey
    have hexact := exact_onlyConfigs_applyAll (s := empty) exact_empty hspares
    exact hexact.appConfigs_eq_configsOf appKey
  · intro hspares name
    have hexact := exact_onlyApps_applyAll (s := empty) exact_empty coherent_empty hspares
    constructor
    · intro hfound
      obtain ⟨a, ha⟩ := Option.isSome_iff_exists.mp hfound
      obtain ⟨hname, hstored⟩ := htruthful.name_of_appByName? hcoherent ha
      exact ⟨a, hstored, hname⟩
    · rintro ⟨a, ha, rfl⟩
      exact Option.isSome_of_mem (hexact.appByName?_eq_some ha)

/-- An app is renamed, another one takes its former name, a config moves to that one, and one
config goes before its app does. -/
def rearrangement : List Change :=
  [.upsert (.app ⟨"k1", "shop", .real, "s1", 0, 0⟩),
   .upsert (.config ⟨"c2", "k1", "limit", "2", .int, .active⟩),
   .upsert (.config ⟨"c1", "k1", "title", "hello", .string, .active⟩),
   .upsert (.app ⟨"k1", "store", .real, "s1", 0, 1⟩),
   .upsert (.app ⟨"k2", "shop", .real, "s2", 0, 0⟩),
   .upsert (.config ⟨"c2", "k2", "limit", "2", .int, .active⟩),
   .delete ⟨.config, "c1"⟩,
   .delete ⟨.app, "k1"⟩]

theorem lookups_after_changes_rearrangement :
    (empty.Throughout SparesConfigs rearrangement ∧ ∀ appKey,
      (empty.applyAll rearrangement).appConfigs appKey =
        (empty.applyAll rearrangement).configsOf appKey) ∧
    (empty.Throughout SparesNames rearrangement ∧ ∀ name,
      ((empty.applyAll rearrangement).appByName? name).isSome ↔
        (empty.applyAll rearrangement).IsNamed name) := by
  have hconfigs : empty.Throughout SparesConfigs rearrangement := by decide +kernel
  have hnames : empty.Throughout SparesNames rearrangement := by decide +kernel
  obtain ⟨-, -, hlisted, hfound⟩ := lookups_after_changes rearrangement
  exact ⟨⟨hconfigs, hlisted hconfigs⟩, hnames, hfound hnames⟩

/-- Two apps share a name until one of them is renamed; then the other one is not found any more. -/
def sharedName : List Change :=
  [.upsert (.app ⟨"k1", "shop", .real, "s1", 0, 0⟩),
   .upsert (.app ⟨"k2", "shop", .real, "s2", 0, 0⟩),
   .upsert (.app ⟨"k2", "store", .real, "s2", 0, 1⟩)]

/-- An app goes and comes back while its config stays; then the config is not listed any more. -/
def orphanedConfig : List Change :=
  [.upsert (.app ⟨"k1", "shop", .real, "s1", 0, 0⟩),
   .upsert (.config ⟨"c1", "k1", "title", "hello", .string, .active⟩),
   .delete ⟨.app, "k1"⟩,
   .upsert (.app ⟨"k1", "shop", .real, "s1", 0, 0⟩)]

/-- After some changes an index lacks an entry. -/
theorem not_lookups_complete :
    (¬ ∀ changes name, ((empty.applyAll changes).appByName? name).isSome ↔
      (empty.applyAll changes).IsNamed name) ∧
    ¬ ∀ changes appKey,
      (empty.applyAll changes).appConfigs appKey = (empty.applyAll changes).configsOf appKey := by
  constructor
  · intro h
    have hnamed : (empty.applyAll sharedName).IsNamed "shop" :=
      ⟨⟨"k1", "shop", .real, "s1", 0, 0⟩, by decide +kernel, rfl⟩
    have hlost : ((empty.applyAll sharedName).appByName? "shop").isSome = false := by decide +kernel
    rw [(h sharedName "shop").mpr hnamed] at hlost
    cases hlost
  · intro h
    have hlengths := congrArg List.length (h orphanedConfig "k1")
    have hlisted : ((empty.applyAll orphanedConfig).appConfigs "k1").length = 0 := by decide +kernel
    have hstored : ((empty.applyAll orphanedConfig).configsOf "k1").length = 1 := by decide +kernel
    rw [hlisted, hstored] at hlengths
    cases hlengths

end Snapshot

end RemoteConfig
