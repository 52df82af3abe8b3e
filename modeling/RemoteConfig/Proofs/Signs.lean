import RemoteConfig.Proofs.Edit
/-! # Signs of apps

An app is signed anew whenever its active values may change.  So whoever compares two snapshots of
one master, where an app has the same sign in both, has compared its active values. -/

namespace RemoteConfig

open Table

namespace Snapshot

variable {s t : Snapshot}

/-! ## Active values by config -/

/-- What a config contributes to the active values of an app. -/
def visible (appKey : String) (c : CompiledConfig) : Option (String × ConfigValue) :=
  if c.entry.appKey = appKey then
    if c.entry.isActive then c.value.toOption.map (c.entry.fieldName, ·) else none
  else none

/-- With exact indexes, the active values come from all configs in the order of their keys. -/
theorem Exact.activeValues_eq_filterMap (hs : s.Exact) (appKey : String) :
    s.activeValues appKey = s.configs.toList.filterMap fun row => visible appKey row.2 := by
  let keys := s.appConfigKeys[appKey]?.getD ∅
  have hkeys : ∀ key ∈ keys, key ∈ s.configs := by
    intro key hkey
    obtain ⟨c, hc, -⟩ := (hs.configs appKey key).mp hkey
    rw [Std.ExtTreeMap.mem_iff_isSome_getElem?, hc]
    rfl
  rw [activeValues, appConfigs, List.filterMap_filterMap, filterMap_getElem? hkeys]
  refine List.filterMap_congr ?_
  intro row hrow
  have hrow' : s.configs[row.1]? = some row.2 :=
    Std.ExtTreeMap.mem_toList_iff_getElem?_eq_some.mp hrow
  have hmem : keys.contains row.1 = true ↔ row.2.entry.appKey = appKey := by
    rw [Std.ExtTreeSet.contains_iff_mem, hs.configs, hrow']
    simp
  by_cases happ : row.2.entry.appKey = appKey
  · simp only [hmem.mpr happ, visible, happ, if_true]
  · have hnot : keys.contains row.1 = false := by
      rw [← Bool.not_eq_true]
      exact fun h => happ (hmem.mp h)
    simp [hnot, visible, happ]

/-- The active values of an app are the same where every config contributes the same. -/
theorem Exact.activeValues_congr (hs : s.Exact) (ht : t.Exact) {appKey : String}
    (h : ∀ key : String,
      s.configs[key]?.bind (visible appKey) = t.configs[key]?.bind (visible appKey)) :
    s.activeValues appKey = t.activeValues appKey := by
  rw [hs.activeValues_eq_filterMap, ht.activeValues_eq_filterMap]
  exact filterMap_toList_congr (f := fun _ => visible appKey) h

/-- An active value comes from a config. -/
theorem exists_config_of_mem_activeValues {appKey field : String} {value : ConfigValue}
    (h : (field, value) ∈ s.activeValues appKey) :
    ∃ (key : String) (c : CompiledConfig), s.configs[key]? = some c ∧ c.value = .ok value := by
  obtain ⟨c, hc, hshown⟩ := List.mem_filterMap.mp h
  obtain ⟨key, -, hkey⟩ := List.mem_filterMap.mp hc
  refine ⟨key, c, hkey, ?_⟩
  split at hshown
  · obtain ⟨value', hvalue, heq⟩ := Option.map_eq_some_iff.mp hshown
    cases heq
    cases hv : c.value with
    | error e => rw [hv] at hvalue; cases hvalue
    | ok v => rw [hv] at hvalue; cases hvalue; rfl
  · cases hshown

/-! ## Configs and their apps -/

/-- Every config belongs to an app, and every template that one inlines is an app. -/
structure Grounded (s : Snapshot) : Prop where
  homes : ∀ (key : String) c, s.configs[key]? = some c → (s.apps[c.entry.appKey]?).isSome
  templates : ∀ (key : String) c template, s.configs[key]? = some c →
    c.value = .ok (.template template) → (s.apps[template]?).isSome

theorem Grounded.congr (h : s.Grounded) (happs : s.apps = t.apps)
    (hconfigs : s.configs = t.configs) : t.Grounded := by
  constructor
  · rw [← happs, ← hconfigs]
    exact h.homes
  · rw [← happs, ← hconfigs]
    exact h.templates

/-- An app that is entered leaves all apps that were there, so only new configs have to be looked
at. -/
theorem Grounded.insertApp (h : s.Grounded) (a : App) (happs : t.apps = s.apps.insert a.key a)
    (hconfigs : ∀ (key : String) c, t.configs[key]? = some c → s.configs[key]? = some c ∨
      (s.apps[c.entry.appKey]?).isSome ∧
        ∀ template, c.value = .ok (.template template) → (s.apps[template]?).isSome) :
    t.Grounded := by
  have hkeep : ∀ k : String, (s.apps[k]?).isSome → (t.apps[k]?).isSome := by
    intro k hk
    rw [happs, getElem?_insert_ite]
    split
    · rfl
    · exact hk
  constructor
  · intro key c hc
    rcases hconfigs key c hc with hold | ⟨hhome, -⟩
    · exact hkeep _ (h.homes key c hold)
    · exact hkeep _ hhome
  · intro key c template hc hvalue
    rcases hconfigs key c hc with hold | ⟨-, htemplate⟩
    · exact hkeep _ (h.templates key c template hold hvalue)
    · exact hkeep _ (htemplate template hvalue)

/-- A template that no app references is inlined by no config. -/
theorem Grounded.ne_of_not_referenced (h : s.Grounded) (hs : s.Exact) {template : String}
    (hreference : s.isTemplateReferenced template = false) {key : String} {c : CompiledConfig}
    (hc : s.configs[key]? = some c) {template' : String}
    (hvalue : c.value = .ok (.template template')) : template' ≠ template := by
  rintro rfl
  have hhome : c.entry.appKey ∈ s.apps.keys := by
    rw [Std.ExtTreeMap.mem_keys, Std.ExtTreeMap.mem_iff_isSome_getElem?]
    exact h.homes key c hc
  have hreferenced : s.isTemplateReferenced template' = true := by
    refine List.any_eq_true.mpr ⟨_, hhome, List.any_eq_true.mpr ⟨c, ?_, ?_⟩⟩
    · exact hs.mem_appConfigs.mpr ⟨key, hc, rfl⟩
    · rw [hvalue]
      exact decide_eq_true rfl
  rw [hreference] at hreferenced
  cases hreferenced

/-! ## The tables after changes -/

theorem apps_apply_of_ne {c : Change} (h : c.key.kind ≠ .app) : (s.apply c).apps = s.apps := by
  rcases c with e | ⟨kind, key⟩
  · cases e with
    | app a => exact absurd rfl h
    | _ => rfl
  · cases kind with
    | app => exact absurd rfl h
    | config =>
        simp only [apply, delete, deleteConfig]
        split <;> rfl
    | _ => rfl

theorem configs_apply_of_ne {c : Change} (h : c.key.kind ≠ .config) :
    (s.apply c).configs = s.configs := by
  rcases c with e | ⟨kind, key⟩
  · cases e with
    | config c => exact absurd rfl h
    | _ => rfl
  · cases kind with
    | config => exact absurd rfl h
    | _ => rfl

theorem apps_applyAll_of_ne : ∀ {changes : List Change} {s : Snapshot},
    (∀ c ∈ changes, c.key.kind ≠ .app) → (s.applyAll changes).apps = s.apps
  | [], _, _ => rfl
  | c :: rest, s, h => by
      have hrest := apps_applyAll_of_ne (s := s.apply c) fun c' hc' =>
        h c' (List.mem_cons_of_mem _ hc')
      exact hrest.trans (apps_apply_of_ne (h c List.mem_cons_self))

theorem configs_applyAll_of_ne : ∀ {changes : List Change} {s : Snapshot},
    (∀ c ∈ changes, c.key.kind ≠ .config) → (s.applyAll changes).configs = s.configs
  | [], _, _ => rfl
  | c :: rest, s, h => by
      have hrest := configs_applyAll_of_ne (s := s.apply c) fun c' hc' =>
        h c' (List.mem_cons_of_mem _ hc')
      exact hrest.trans (configs_apply_of_ne (h c List.mem_cons_self))

theorem getElem?_configs_deleteConfig (s : Snapshot) (key k : String) :
    (s.deleteConfig key).configs[k]? = if k = key then none else s.configs[k]? := by
  unfold deleteConfig
  cases hgone : s.configs[key]? with
  | none =>
      by_cases hk : k = key
      · simp [hk, hgone]
      · simp [hk]
  | some c => exact getElem?_erase_ite _ _ _

theorem apps_deleteApp_hooks (key : String) {hooks : List Change}
    (h : ∀ c ∈ hooks, c.key.kind = .webhook) :
    (s.applyAll (.delete ⟨.app, key⟩ :: hooks)).apps = s.apps.erase key :=
  apps_applyAll_of_ne (s := s.deleteApp key) fun c hc => by
    rw [h c hc]
    exact nofun

theorem configs_deleteApp_hooks (key : String) {hooks : List Change}
    (h : ∀ c ∈ hooks, c.key.kind = .webhook) :
    (s.applyAll (.delete ⟨.app, key⟩ :: hooks)).configs = s.configs :=
  configs_applyAll_of_ne (s := s.deleteApp key) fun c hc => by
    rw [h c hc]
    exact nofun

theorem apps_deleteConfig_upsert (s : Snapshot) (key : String) (a : App) :
    (s.applyAll [.delete ⟨.config, key⟩, .upsert (.app a)]).apps = s.apps.insert a.key a := by
  have happs : (s.deleteConfig key).apps = s.apps :=
    apps_apply_of_ne (c := .delete ⟨.config, key⟩) nofun
  exact congrArg (Std.ExtTreeMap.insert · a.key a) happs

theorem getElem?_configs_putConfig (s : Snapshot) (c : Config) (a : App) (k : String) :
    (s.applyAll [.upsert (.config c), .upsert (.app a)]).configs[k]? =
      if k = c.key then some c.compile else s.configs[k]? :=
  getElem?_insert_ite _ _ _ _

/-- Every app is as it was, with the same sign and active values, or it is the one app of the given
key and has the given sign. -/
def Resigned (s t : Snapshot) (appKey sign : String) : Prop :=
  ∀ (k : String) b, t.apps[k]? = some b → (k = appKey ∧ b.dataSign = sign) ∨
    ∃ a, s.apps[k]? = some a ∧ a.dataSign = b.dataSign ∧ s.activeValues k = t.activeValues k

/-- Where no active values change, it is enough to look at the apps.  Here none is entered. -/
theorem resigned_of_apps {appKey sign : String} (hvalues : ∀ k, s.activeValues k = t.activeValues k)
    (happs : ∀ (k : String) b, t.apps[k]? = some b → s.apps[k]? = some b) :
    s.Resigned t appKey sign :=
  fun k b hb => Or.inr ⟨b, happs k b hb, rfl, hvalues k⟩

/-- Here one app is entered, with the given sign or with the one that it had. -/
theorem resigned_of_insertApp {sign : String} {a : App}
    (hvalues : ∀ k, s.activeValues k = t.activeValues k) (happs : t.apps = s.apps.insert a.key a)
    (hsign : a.dataSign = sign ∨ ∃ a₀, s.apps[a.key]? = some a₀ ∧ a₀.dataSign = a.dataSign) :
    s.Resigned t a.key sign := by
  intro k b hb
  rw [happs, getElem?_insert_ite] at hb
  split at hb
  · rename_i hk
    obtain rfl := Option.some.inj hb
    rcases hsign with hnew | ⟨a₀, ha₀, hsame⟩
    · exact Or.inl ⟨hk, hnew⟩
    · exact Or.inr ⟨a₀, hk ▸ ha₀, hsame, hvalues k⟩
  · exact Or.inr ⟨b, hb, rfl, hvalues k⟩

end Snapshot

/-! ## What an edit does -/

namespace Edit

variable {sign : String} {s : Snapshot} {changes : List Change}

/-- An orphan has no place in a grounded snapshot. -/
theorem not_orphan (hg : s.Grounded) {key : String} {c : CompiledConfig}
    (hc : s.configs[key]? = some c) : ¬ s.apps[c.entry.appKey]? = none := by
  intro ha
  have hhome := hg.homes key c hc
  rw [ha] at hhome
  cases hhome

theorem grounded (h : Edit sign s changes) (he : s.Exact) (hg : s.Grounded) :
    (s.applyAll changes).Grounded := by
  cases h with
  | peripheral h =>
      exact hg.congr (Snapshot.apps_applyAll_of_ne fun c hc => (h c hc).1).symm
        (Snapshot.configs_applyAll_of_ne fun c hc => (h c hc).2).symm
  | @createApp a hnew hsign hname => exact hg.insertApp a rfl fun _ _ => Or.inl
  | @renameApp a a' ha hsign hname => exact hg.insertApp a' rfl fun _ _ => Or.inl
  | @deleteApp key hooks hconfigs hreference hhooks =>
      have happs := Snapshot.apps_deleteApp_hooks (s := s) key hhooks
      have hsame := Snapshot.configs_deleteApp_hooks (s := s) key hhooks
      constructor
      · intro k c hc
        rw [hsame] at hc
        rw [happs, getElem?_erase_ite, if_neg]
        · exact hg.homes k c hc
        · -- the app that goes has no configs
          exact he.ne_appKey_of_appConfigs_eq_nil hconfigs hc
      · intro k c template hc hvalue
        rw [hsame] at hc
        rw [happs, getElem?_erase_ite, if_neg (hg.ne_of_not_referenced he hreference hc hvalue)]
        exact hg.templates k c template hc hvalue
  | @putConfig c a a' ha hkey hname hbefore htemplate hsign =>
      refine hg.insertApp a' rfl ?_
      intro k c' hc'
      rw [Snapshot.getElem?_configs_putConfig] at hc'
      split at hc'
      · obtain rfl := Option.some.inj hc'
        exact Or.inr ⟨Option.isSome_of_mem ha, htemplate⟩
      · exact Or.inl hc'
  | @deleteConfig key c a a' hc ha hkey hname hsign =>
      refine hg.insertApp a' (s.apps_deleteConfig_upsert key a') ?_
      intro k c' hc'
      change (s.deleteConfig key).configs[k]? = some c' at hc'
      rw [Snapshot.getElem?_configs_deleteConfig] at hc'
      split at hc'
      · cases hc'
      · exact Or.inl hc'
  | @deleteOrphan key c hc ha => exact absurd ha (not_orphan hg hc)

/-- An inactive config contributes nothing. -/
theorem visible_of_not_active {c : CompiledConfig} (h : ¬ c.entry.isActive = true)
    (appKey : String) : Snapshot.visible appKey c = none := by
  unfold Snapshot.visible
  simp [h]

/-- A config contributes to its own app only. -/
theorem visible_of_ne {c : CompiledConfig} {appKey : String} (h : appKey ≠ c.entry.appKey) :
    Snapshot.visible appKey c = none := if_neg (Ne.symm h)

/-- The one app whose config is entered or removed is signed anew, unless the difference cannot be
seen; all others stay as they were. -/
theorem resigned_of_config {t : Snapshot} (hs : s.Coherent) (he : s.Exact) (ht : t.Exact)
    {appKey : String} (key : String) {a a' : App} (ha : s.apps[appKey]? = some a)
    (hkey : a'.key = a.key)
    (happs : t.apps = s.apps.insert a'.key a')
    (hother : ∀ k : String, k ≠ key → t.configs[k]? = s.configs[k]?)
    (hold : ∀ c, s.configs[key]? = some c → c.entry.appKey = appKey)
    (hnew : ∀ c, t.configs[key]? = some c → c.entry.appKey = appKey) {shows : Prop} [Decidable shows]
    (hsign : a'.dataSign = if shows then sign else a.dataSign)
    (hshows : ¬ shows → (∀ c, s.configs[key]? = some c → ¬ c.entry.isActive = true) ∧
      ∀ c, t.configs[key]? = some c → ¬ c.entry.isActive = true) :
    s.Resigned t appKey sign := by
  have hown : a'.key = appKey := hkey.trans (hs.app_key ha)
  intro k b hb
  rw [happs, getElem?_insert_ite, hown] at hb
  -- an app keeps its active values if the config contributes to it neither before nor after
  have hvalues : (∀ c, s.configs[key]? = some c → Snapshot.visible k c = none) →
      (∀ c, t.configs[key]? = some c → Snapshot.visible k c = none) →
      s.activeValues k = t.activeValues k := by
    intro hs₀ ht₀
    refine he.activeValues_congr ht ?_
    intro k'
    by_cases hk' : k' = key
    · rw [hk', Option.bind_eq_none_iff.mpr hs₀, Option.bind_eq_none_iff.mpr ht₀]
    · rw [hother k' hk']
  by_cases hk : k = appKey
  · rw [if_pos hk] at hb
    cases hb
    by_cases hshow : shows
    · exact Or.inl ⟨hk, hsign.trans (if_pos hshow)⟩
    · obtain ⟨hs₀, ht₀⟩ := hshows hshow
      refine Or.inr ⟨a, hk ▸ ha, (hsign.trans (if_neg hshow)).symm, hvalues ?_ ?_⟩
      · exact fun c hc => visible_of_not_active (hs₀ c hc) k
      · exact fun c hc => visible_of_not_active (ht₀ c hc) k
  · rw [if_neg hk] at hb
    refine Or.inr ⟨b, hb, rfl, hvalues ?_ ?_⟩
    · exact fun c hc => visible_of_ne (hold c hc ▸ hk)
    · exact fun c hc => visible_of_ne (hnew c hc ▸ hk)

theorem resigned_putConfig (hs : s.Coherent) (he : s.Exact) {c : Config} {a a' : App}
    (ht : (s.applyAll [.upsert (.config c), .upsert (.app a')]).Exact)
    (ha : s.apps[c.appKey]? = some a) (hkey : a'.key = a.key)
    (hbefore : ∀ b, s.configs[c.key]? = some b → b.entry.appKey = c.appKey)
    (hsign : a'.dataSign = if c.isActive ∨ ∃ b, s.configs[c.key]? = some b ∧ b.entry.isActive then
      sign else a.dataSign) :
    s.Resigned (s.applyAll [.upsert (.config c), .upsert (.app a')]) c.appKey sign := by
  have hconfigs := s.getElem?_configs_putConfig c a'
  have hself : ∀ c', (s.applyAll [.upsert (.config c), .upsert (.app a')]).configs[c.key]? =
      some c' → c' = c.compile := by
    intro c' hc'
    rw [hconfigs, if_pos rfl] at hc'
    exact (Option.some.inj hc').symm
  refine resigned_of_config hs he ht c.key ha hkey rfl ?_ hbefore ?_ hsign ?_
  · exact fun k hk => (hconfigs k).trans (if_neg hk)
  · intro c' hc'
    rw [hself c' hc']
    rfl
  · intro hshow
    rw [not_or] at hshow
    refine ⟨fun b hb hactive => hshow.2 ⟨b, hb, hactive⟩, ?_⟩
    intro c' hc'
    rw [hself c' hc']
    exact hshow.1

theorem resigned_deleteConfig (hs : s.Coherent) (he : s.Exact) {key : String} {c : CompiledConfig}
    {a a' : App} (ht : (s.applyAll [.delete ⟨.config, key⟩, .upsert (.app a')]).Exact)
    (hc : s.configs[key]? = some c) (ha : s.apps[c.entry.appKey]? = some a)
    (hkey : a'.key = a.key)
    (hsign : a'.dataSign = if c.entry.isActive then sign else a.dataSign) :
    s.Resigned (s.applyAll [.delete ⟨.config, key⟩, .upsert (.app a')]) c.entry.appKey sign := by
  have hconfigs := s.getElem?_configs_deleteConfig key
  have hgone : ∀ c', ¬ (s.deleteConfig key).configs[key]? = some c' := by
    intro c'
    rw [hconfigs, if_pos rfl]
    exact nofun
  have hself : ∀ c', s.configs[key]? = some c' → c' = c :=
    fun c' hc' => Option.some.inj (hc'.symm.trans hc)
  refine resigned_of_config hs he ht key ha hkey (s.apps_deleteConfig_upsert key a') ?_ ?_ ?_ hsign
    ?_
  · exact fun k hk => (hconfigs k).trans (if_neg hk)
  · exact fun c' hc' => by rw [hself c' hc']
  · exact fun c' hc' => absurd hc' (hgone c')
  · exact fun hshow => ⟨fun c' hc' => hself c' hc' ▸ hshow, fun c' hc' => absurd hc' (hgone c')⟩

theorem resigned (h : Edit sign s changes) (hs : s.Coherent) (he : s.Exact) (hg : s.Grounded)
    (ht : (s.applyAll changes).Exact) : ∃ appKey, s.Resigned (s.applyAll changes) appKey sign := by
  -- where no config changes, an app that stays keeps its active values
  have hkept : (s.applyAll changes).configs = s.configs →
      ∀ k, s.activeValues k = (s.applyAll changes).activeValues k :=
    fun hconfigs k => he.activeValues_eq ht hconfigs.symm k
  cases h with
  | peripheral h =>
      have happs := Snapshot.apps_applyAll_of_ne (s := s) fun c hc => (h c hc).1
      have hvalues := hkept (Snapshot.configs_applyAll_of_ne fun c hc => (h c hc).2)
      exact ⟨"", Snapshot.resigned_of_apps hvalues fun k b hb => happs ▸ hb⟩
  | @createApp a hnew hsign hname =>
      exact ⟨a.key, Snapshot.resigned_of_insertApp (hkept rfl) rfl (Or.inl hsign)⟩
  | @renameApp a a' ha hsign hname =>
      exact ⟨a'.key, Snapshot.resigned_of_insertApp (hkept rfl) rfl (Or.inr ⟨a, ha, hsign.symm⟩)⟩
  | @deleteApp key hooks hconfigs hreference hhooks =>
      have hvalues := hkept (Snapshot.configs_deleteApp_hooks key hhooks)
      refine ⟨key, Snapshot.resigned_of_apps hvalues ?_⟩
      intro k b hb
      rw [Snapshot.apps_deleteApp_hooks key hhooks, getElem?_erase_ite] at hb
      split at hb
      · cases hb
      · exact hb
  | putConfig ha hkey hname hbefore htemplate hsign =>
      exact ⟨_, resigned_putConfig hs he ht ha hkey hbefore hsign⟩
  | deleteConfig hc ha hkey hname hsign =>
      exact ⟨_, resigned_deleteConfig hs he ht hc ha hkey hsign⟩
  | deleteOrphan hc ha => exact absurd ha (not_orphan hg hc)

end Edit

end RemoteConfig
