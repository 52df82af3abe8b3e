import Mathlib.Data.List.Infix
import RemoteConfig.Proofs.Invariant
import RemoteConfig.Proofs.Signs
/-! # Referential integrity

Configs, web hooks and templates refer to apps, and an app counts its configs.  Each request looks
after one side of a reference: a config is not entered before its app, an app is not removed before
its configs, a template stays one as long as it is inlined.  Together they keep all references of a
master whole. -/

namespace RemoteConfig

open Table

namespace Snapshot

/-! ## Whole references -/

/-- All that refers to an app finds it. -/
structure Integral (s : Snapshot) : Prop where
  /-- Every config belongs to an app. -/
  homes : ∀ (key : String) c, s.configs[key]? = some c → ∃ a, s.apps[c.entry.appKey]? = some a
  /-- Every web hook belongs to an app. -/
  hooks : ∀ (key : String) w, s.webhooks[key]? = some w → ∃ a, s.apps[w.appKey]? = some a
  /-- The configs of one app have different field names. -/
  fields : ∀ (key key' : String) c c', s.configs[key]? = some c → s.configs[key']? = some c' →
    c.entry.appKey = c'.entry.appKey → c.entry.fieldName = c'.entry.fieldName → key = key'
  /-- Apps have different names. -/
  names : ∀ (key key' : String) a a', s.apps[key]? = some a → s.apps[key']? = some a' →
    a.name = a'.name → key = key'
  /-- Every config can be decoded, and what it inlines is another app, which is a template. -/
  values : ∀ (key : String) c, s.configs[key]? = some c → ∃ value, c.value = .ok value ∧
    ∀ template, value = .template template → template ≠ c.entry.appKey ∧
      ∃ a, s.apps[template]? = some a ∧ a.type = .template

namespace Integral

variable {s t : Snapshot}

theorem empty_apps (happs : s.apps = ∅) (hconfigs : s.configs = ∅) (hhooks : s.webhooks = ∅) :
    s.Integral where
  homes key c hc := by simp [hconfigs] at hc
  hooks key w hw := by simp [hhooks] at hw
  fields key key' c c' hc := by simp [hconfigs] at hc
  names key key' a a' ha := by simp [happs] at ha
  values key c hc := by simp [hconfigs] at hc

theorem grounded (h : s.Integral) : s.Grounded where
  homes key c hc := by
    obtain ⟨a, ha⟩ := h.homes key c hc
    exact Option.isSome_of_mem ha
  templates key c template hc hvalue := by
    obtain ⟨value, hok, htemplate⟩ := h.values key c hc
    obtain ⟨-, a, ha, -⟩ := htemplate template (Except.ok.inj (hok.symm.trans hvalue))
    exact Option.isSome_of_mem ha

/-- What a config inlines is a template. -/
theorem template_of_inlined (h : s.Integral) {key template : String} {c : CompiledConfig} {a : App}
    (hc : s.configs[key]? = some c) (hvalue : c.value = .ok (.template template))
    (ha : s.apps[template]? = some a) : a.type = .template := by
  obtain ⟨value, hok, htemplate⟩ := h.values key c hc
  obtain ⟨-, a', ha', htype⟩ := htemplate template (Except.ok.inj (hok.symm.trans hvalue))
  obtain rfl := Option.some.inj (ha'.symm.trans ha)
  exact htype

/-- Configs and web hooks may go. -/
theorem mono (h : s.Integral) (happs : t.apps = s.apps)
    (hconfigs : ∀ (key : String) c, t.configs[key]? = some c → s.configs[key]? = some c)
    (hhooks : ∀ (key : String) w, t.webhooks[key]? = some w → s.webhooks[key]? = some w) :
    t.Integral := by
  constructor
  · intro key c hc
    rw [happs]
    exact h.homes key c (hconfigs key c hc)
  · intro key w hw
    rw [happs]
    exact h.hooks key w (hhooks key w hw)
  · intro key key' c c' hc hc'
    exact h.fields key key' c c' (hconfigs key c hc) (hconfigs key' c' hc')
  · rw [happs]
    exact h.names
  · intro key c hc
    rw [happs]
    exact h.values key c (hconfigs key c hc)

/-- An app that is entered under a name that no other app has leaves all names different. -/
theorem names_insertApp (h : s.Integral) {a : App}
    (hfree : ∀ (key : String) b, s.apps[key]? = some b → b.name = a.name → key = a.key)
    {key key' : String} {b b' : App} (hb : (s.apps.insert a.key a)[key]? = some b)
    (hb' : (s.apps.insert a.key a)[key']? = some b') (hname : b.name = b'.name) : key = key' := by
  rw [getElem?_insert_ite] at hb hb'
  -- only one of the two can be the app that is entered, unless both are
  split at hb
  · rename_i hkey
    obtain rfl := Option.some.inj hb
    split at hb'
    · rename_i hkey'
      rw [hkey, hkey']
    · rw [hkey, hfree key' b' hb' hname.symm]
  · split at hb'
    · rename_i hkey'
      obtain rfl := Option.some.inj hb'
      rw [hkey', hfree key b hb hname]
    · exact h.names key key' b b' hb hb' hname

/-- An app may be entered under a name that no other app has, and as something else than a template
only if nothing inlines it. -/
theorem insertApp (h : s.Integral) {a : App} (happs : t.apps = s.apps.insert a.key a)
    (hconfigs : t.configs = s.configs) (hhooks : t.webhooks = s.webhooks)
    (hfree : ∀ (key : String) b, s.apps[key]? = some b → b.name = a.name → key = a.key)
    (htype : ∀ (key : String) c, s.configs[key]? = some c → c.value = .ok (.template a.key) →
      a.type = .template) : t.Integral := by
  have hkeep : ∀ (key : String) b, s.apps[key]? = some b → ∃ b', t.apps[key]? = some b' := by
    intro key b hb
    rw [happs, getElem?_insert_ite]
    split
    · exact ⟨a, rfl⟩
    · exact ⟨b, hb⟩
  constructor
  · intro key c hc
    rw [hconfigs] at hc
    obtain ⟨b, hb⟩ := h.homes key c hc
    exact hkeep _ b hb
  · intro key w hw
    rw [hhooks] at hw
    obtain ⟨b, hb⟩ := h.hooks key w hw
    exact hkeep _ b hb
  · rw [hconfigs]
    exact h.fields
  · intro key key' b b' hb hb' hname
    rw [happs] at hb hb'
    exact h.names_insertApp hfree hb hb' hname
  · intro key c hc
    rw [hconfigs] at hc
    obtain ⟨value, hvalue, htemplate⟩ := h.values key c hc
    refine ⟨value, hvalue, ?_⟩
    rintro template rfl
    obtain ⟨hne, b, hb, hbtype⟩ := htemplate template rfl
    refine ⟨hne, ?_⟩
    rw [happs, getElem?_insert_ite]
    split
    · rename_i hkey
      exact ⟨a, rfl, htype key c hc (hkey ▸ hvalue)⟩
    · exact ⟨b, hb, hbtype⟩

/-- An app may go with its web hooks, if it has no configs and nothing inlines it. -/
theorem eraseApp (h : s.Integral) {appKey : String} (happs : t.apps = s.apps.erase appKey)
    (hconfigs : t.configs = s.configs)
    (hhooks : ∀ (key : String) w, t.webhooks[key]? = some w →
      s.webhooks[key]? = some w ∧ w.appKey ≠ appKey)
    (hhome : ∀ (key : String) c, s.configs[key]? = some c → c.entry.appKey ≠ appKey)
    (hinlined : ∀ (key : String) c template, s.configs[key]? = some c →
      c.value = .ok (.template template) → template ≠ appKey) : t.Integral := by
  have hkeep : ∀ key : String, key ≠ appKey → t.apps[key]? = s.apps[key]? := by
    intro key hne
    rw [happs, getElem?_erase_ite, if_neg hne]
  have hold : ∀ (key : String) b, t.apps[key]? = some b → s.apps[key]? = some b := by
    intro key b hb
    rw [happs, getElem?_erase_ite] at hb
    split at hb
    · cases hb
    · exact hb
  constructor
  · intro key c hc
    rw [hconfigs] at hc
    rw [hkeep _ (hhome key c hc)]
    exact h.homes key c hc
  · intro key w hw
    obtain ⟨hw, hne⟩ := hhooks key w hw
    rw [hkeep _ hne]
    exact h.hooks key w hw
  · rw [hconfigs]
    exact h.fields
  · intro key key' a a' ha ha'
    exact h.names key key' a a' (hold key a ha) (hold key' a' ha')
  · intro key c hc
    rw [hconfigs] at hc
    obtain ⟨value, hvalue, htemplate⟩ := h.values key c hc
    refine ⟨value, hvalue, ?_⟩
    rintro template rfl
    rw [hkeep _ (hinlined key c template hc hvalue)]
    exact htemplate template rfl

/-- A config may be entered into an app under a field name that is free there, if it can be decoded
and inlines a template at most. -/
theorem insertConfig (h : s.Integral) {c : Config} {a : App} {value : ConfigValue}
    (happs : t.apps = s.apps) (hconfigs : t.configs = s.configs.insert c.key c.compile)
    (hhooks : t.webhooks = s.webhooks) (ha : s.apps[c.appKey]? = some a)
    (hfield : ∀ (key : String) other, s.configs[key]? = some other →
      other.entry.appKey = c.appKey → other.entry.fieldName = c.fieldName → key = c.key)
    (hvalue : c.compile.value = .ok value)
    (htemplate : ∀ template, value = .template template → template ≠ c.appKey ∧
      ∃ b, s.apps[template]? = some b ∧ b.type = .template) : t.Integral := by
  have hcases : ∀ (key : String) other, t.configs[key]? = some other →
      (key = c.key ∧ other = c.compile) ∨ s.configs[key]? = some other := by
    intro key other hother
    rw [hconfigs, getElem?_insert_ite] at hother
    split at hother
    · exact Or.inl ⟨‹_›, (Option.some.inj hother).symm⟩
    · exact Or.inr hother
  constructor
  · intro key other hother
    rw [happs]
    rcases hcases key other hother with ⟨-, rfl⟩ | hold
    · exact ⟨a, ha⟩
    · exact h.homes key other hold
  · rw [happs, hhooks]
    exact h.hooks
  · intro key key' other other' hother hother' happ hname
    rcases hcases key other hother with ⟨hkey, rfl⟩ | hold
    · rcases hcases key' other' hother' with ⟨hkey', rfl⟩ | hold'
      · rw [hkey, hkey']
      · rw [hkey, hfield key' other' hold' happ.symm hname.symm]
    · rcases hcases key' other' hother' with ⟨hkey', rfl⟩ | hold'
      · rw [hkey', hfield key other hold happ hname]
      · exact h.fields key key' other other' hold hold' happ hname
  · rw [happs]
    exact h.names
  · intro key other hother
    rw [happs]
    rcases hcases key other hother with ⟨-, rfl⟩ | hold
    · exact ⟨value, hvalue, htemplate⟩
    · exact h.values key other hold

/-- A web hook may be entered for an app that is there. -/
theorem insertHook (h : s.Integral) {w : Webhook} {a : App} (happs : t.apps = s.apps)
    (hconfigs : t.configs = s.configs) (hhooks : t.webhooks = s.webhooks.insert w.key w)
    (ha : s.apps[w.appKey]? = some a) : t.Integral := by
  constructor
  · rw [happs, hconfigs]
    exact h.homes
  · intro key w' hw'
    rw [hhooks, getElem?_insert_ite] at hw'
    rw [happs]
    split at hw'
    · obtain rfl := Option.some.inj hw'
      exact ⟨a, ha⟩
    · exact h.hooks key w' hw'
  · rw [hconfigs]
    exact h.fields
  · rw [happs]
    exact h.names
  · rw [happs, hconfigs]
    exact h.values

/-- The app of a config gets a new row with the same name and type. -/
theorem insertRow (h : s.Integral) (hs : s.Coherent) {key : String}
    {a a' : App} (ha : s.apps[key]? = some a) (hkey : a'.key = a.key) (hname : a'.name = a.name)
    (htype : a'.type = a.type) (happs : t.apps = s.apps.insert a'.key a')
    (hconfigs : t.configs = s.configs) (hhooks : t.webhooks = s.webhooks) : t.Integral := by
  have ha' : s.apps[a'.key]? = some a := by rw [hkey, hs.app_key ha, ha]
  refine h.insertApp happs hconfigs hhooks ?_ ?_
  · intro k b hb hsame
    exact h.names k a'.key b a hb ha' (hsame.trans hname)
  · intro k c hc hvalue
    rw [htype]
    exact h.template_of_inlined hc hvalue ha'

end Integral

/-- With a config that is there nothing else goes. -/
theorem tables_deleteConfig {s : Snapshot} {key : String} {c : CompiledConfig}
    (hc : s.configs[key]? = some c) : (s.deleteConfig key).apps = s.apps ∧
      (s.deleteConfig key).configs = s.configs.erase key ∧
        (s.deleteConfig key).webhooks = s.webhooks := by
  unfold deleteConfig
  rw [hc]
  exact ⟨rfl, rfl, rfl⟩

theorem exists_app_of_contains {s : Snapshot} {key : String} (h : s.contains ⟨.app, key⟩ = true) :
    ∃ a, s.apps[key]? = some a := by
  rw [contains_eq_isSome] at h
  exact Option.isSome_iff_exists.mp (by simpa [entity?] using h)

/-! ## Counted configs -/

/-- How many configs belong to an app. -/
def configCount (s : Snapshot) (appKey : String) : Nat :=
  (s.configs.filter fun _ c => c.entry.appKey = appKey).size

/-- The app of a key, if there is one, counts its configs. -/
def Counted (s : Snapshot) (appKey : String) : Prop :=
  ∀ a, s.apps[appKey]? = some a → a.keyCount.toNat = s.configCount appKey

section Counting

variable {s t : Snapshot}

theorem configCount_congr (hconfigs : t.configs = s.configs) (appKey : String) :
    t.configCount appKey = s.configCount appKey := by
  rw [configCount, configCount, hconfigs]

theorem configCount_insert {c : Config}
    (hconfigs : t.configs = s.configs.insert c.key c.compile) (appKey : String) :
    t.configCount appKey + (if s.configs[c.key]?.any (·.entry.appKey = appKey) then 1 else 0) =
      s.configCount appKey + if c.appKey = appKey then 1 else 0 := by
  have hsize := size_filter_insert s.configs c.key (fun c => decide (c.entry.appKey = appKey))
    c.compile
  simp only [decide_eq_true_eq] at hsize
  rw [configCount, configCount, hconfigs]
  exact hsize

theorem configCount_erase {key : String} (hconfigs : t.configs = s.configs.erase key)
    (appKey : String) :
    t.configCount appKey + (if s.configs[key]?.any (·.entry.appKey = appKey) then 1 else 0) =
      s.configCount appKey := by
  rw [configCount, configCount, hconfigs]
  exact size_filter_erase s.configs key fun c => decide (c.entry.appKey = appKey)

theorem configCount_eq_zero {appKey : String}
    (h : ∀ (key : String) c, s.configs[key]? = some c → c.entry.appKey ≠ appKey) :
    s.configCount appKey = 0 := by
  rw [configCount, ← Std.ExtTreeMap.eq_empty_iff_size_eq_zero]
  refine Std.ExtTreeMap.ext_getElem? fun {key} => ?_
  rw [getElem?_filter_values]
  cases hc : s.configs[key]? with
  | none => simp
  | some c => simp [h key c hc]

/-- An app that is entered has to bring the right number along; the configs of other apps stay. -/
theorem Counted.insertApp {appKey : String} (h : s.Counted appKey) {a : App}
    (happs : t.apps = s.apps.insert a.key a)
    (hother : appKey ≠ a.key → t.configCount appKey = s.configCount appKey)
    (hcount : appKey = a.key → a.keyCount.toNat = t.configCount appKey) : t.Counted appKey := by
  intro b hb
  rw [happs, getElem?_insert_ite] at hb
  split at hb
  · rename_i hkey
    obtain rfl := Option.some.inj hb
    exact hcount hkey
  · rename_i hkey
    rw [hother hkey]
    exact h b hb

end Counting

end Snapshot

/-! ## What requests keep -/

namespace Replica

/-- A claim leaves all that refers to apps, and all that it refers to. -/
theorem Claimed.tables_eq {settings : Settings} {now : Timestamp} {s : Snapshot} {d : Delta}
    (h : Claimed settings now s d) : (s.applyAll d.changes).apps = s.apps ∧
      (s.applyAll d.changes).configs = s.configs ∧
        (s.applyAll d.changes).webhooks = s.webhooks := by
  cases h with
  | holding => exact ⟨rfl, rfl, rfl⟩
  | entering => exact ⟨rfl, rfl, rfl⟩
  | replacing => exact ⟨rfl, rfl, rfl⟩

end Replica

namespace Write

variable {sign : String} {s : Snapshot}

/-- With an app its web hooks go. -/
theorem webhooks_unhook (hs : s.Coherent) {appKey key : String} {w : Webhook}
    (hw : (s.applyAll (.delete ⟨.app, appKey⟩ :: unhook s appKey)).webhooks[key]? = some w) :
    s.webhooks[key]? = some w ∧ w.appKey ≠ appKey := by
  let hooks := s.webhooks.values.filter (·.appKey = appKey)
  let keys : List EntityKey := ⟨.app, appKey⟩ :: hooks.map fun w => ⟨.webhook, w.key⟩
  have hchanges : .delete ⟨.app, appKey⟩ :: unhook s appKey = keys.map .delete := by
    simp [unhook, keys, hooks]
  have hthere : (s.entity?.applyAll (keys.map .delete)) ⟨.webhook, key⟩ = some (.webhook w) := by
    rw [← hchanges, ← Snapshot.entity?_applyAll]
    simp [Snapshot.entity?, hw]
  have hkept : ∀ c ∈ keys.map Change.delete, c.key ≠ ⟨.webhook, key⟩ := by
    intro c hc hkey
    have hgone : (s.entity?.applyAll (keys.map .delete)) ⟨.webhook, key⟩ =
        Holdings.empty.applyAll (keys.map .delete) ⟨.webhook, key⟩ :=
      Holdings.applyAll_congr (Or.inr ⟨c, hc, hkey⟩)
    rw [hthere, Holdings.empty_applyAll_deletes] at hgone
    cases hgone
  rw [Holdings.applyAll_of_not_mem hkept] at hthere
  have hold : s.webhooks[key]? = some w := by simpa [Snapshot.entity?] using hthere
  refine ⟨hold, ?_⟩
  intro happ
  have hkey : w.key = key := congrArg EntityKey.key (hs.keyed _ _ hthere)
  have hmem : w ∈ hooks := List.mem_filter.mpr ⟨mem_values.mpr ⟨key, hold⟩, decide_eq_true happ⟩
  refine hkept (.delete ⟨.webhook, w.key⟩) ?_ (by rw [← hkey]; rfl)
  exact List.mem_map_of_mem (List.mem_cons_of_mem _ (List.mem_map_of_mem hmem))

section Integral

variable (hs : s.Coherent) (he : s.Exact) (hi : s.Integral)
include hs hi

include he in
/-- An app that nothing inlines may become anything, and all others keep their names. -/
theorem integral_updateApp {key name : String} {type : AppType} {a : App}
    (hname : NameFree s name key) (ha : s.apps[key]? = some a)
    (htype : a.type = .template → type ≠ .template → s.isTemplateReferenced key = false) :
    (s.upsertApp { updated a with name := name, type := type }).Integral := by
  obtain rfl := hs.app_key ha
  refine hi.insertApp rfl rfl rfl (fun k b => he.eq_key_of_free hs hname) ?_
  intro k c hc hvalue
  by_contra hreal
  have hreference := htype (hi.template_of_inlined hc hvalue ha) hreal
  exact hi.grounded.ne_of_not_referenced he hreference hc hvalue rfl

include he in
/-- A config enters its app, whose row changes with it. -/
theorem integral_putConfig {c : Config} {a : App} {value : ConfigValue}
    (hvalue : c.compile.value = .ok value) (ha : s.apps[c.appKey]? = some a)
    (hfield : ∀ other ∈ s.appConfigs c.appKey, other.entry.fieldName = c.fieldName →
      other.entry.key = c.key)
    (htemplate : ∀ key, value = .template key →
      ∃ t, s.apps[key]? = some t ∧ t.type = .template ∧ t.key ≠ c.appKey) (before : Option Config) :
    ((s.upsertConfig c).upsertApp (entered sign a before c)).Integral := by
  have hentered : (s.upsertConfig c).Integral := by
    refine hi.insertConfig rfl rfl rfl ha ?_ hvalue ?_
    · intro key other hother happ hsame
      have hmem := he.mem_appConfigs.mpr ⟨key, hother, happ⟩
      rw [← hfield other hmem hsame, hs.config_key hother]
    · intro template hinlines
      obtain ⟨t, ht, htype, hne⟩ := htemplate template hinlines
      exact ⟨hs.app_key ht ▸ hne, t, ht, htype⟩
  exact hentered.insertRow (hs.apply (.upsert (.config c))) ha (key_entered ..) (name_entered ..)
    (type_entered ..) rfl rfl rfl

/-- A config leaves its app, whose row changes with it. -/
theorem integral_deleteConfig {key : String} {c : CompiledConfig} {a : App}
    (hc : s.configs[key]? = some c) (ha : s.apps[c.entry.appKey]? = some a) :
    ((s.deleteConfig key).upsertApp (removed sign a c.entry)).Integral := by
  obtain ⟨happs, hconfigs, hhooks⟩ := Snapshot.tables_deleteConfig hc
  have hgone : (s.deleteConfig key).Integral := by
    refine hi.mono happs ?_ fun k w hw => hhooks ▸ hw
    intro k c' hc'
    rw [hconfigs, getElem?_erase_ite] at hc'
    split at hc'
    · cases hc'
    · exact hc'
  have ha' : (s.deleteConfig key).apps[c.entry.appKey]? = some a := happs ▸ ha
  exact hgone.insertRow (hs.apply (.delete ⟨.config, key⟩)) ha' (key_removed ..)
    (name_removed ..) (type_removed ..) rfl rfl rfl

end Integral

/-- Accepted requests keep references whole. -/
theorem Accepted.integral {w : Write} {changes : List Change} (h : Accepted sign s w changes)
    (hs : s.Coherent) (he : s.Exact) (hi : s.Integral) : (s.applyAll changes).Integral := by
  cases h with
  | @createApp key name type hname hnew =>
      refine hi.insertApp rfl rfl rfl (fun k b => he.eq_key_of_free hs hname) ?_
      -- nothing inlines an app that is not there yet
      intro k c hc hvalue
      have htemplate := hi.grounded.templates k c key hc hvalue
      rw [hnew] at htemplate
      cases htemplate
  | updateApp hname ha htype => exact integral_updateApp hs he hi hname ha htype
  | deleteApp h hconfigs hreference =>
      refine hi.eraseApp (Snapshot.apps_deleteApp_hooks _ kind_unhook)
        (Snapshot.configs_deleteApp_hooks _ kind_unhook) (fun key w => webhooks_unhook hs)
        (fun key c => he.ne_appKey_of_appConfigs_eq_nil hconfigs) ?_
      intro key c template hc
      exact hi.grounded.ne_of_not_referenced he hreference hc
  | putConfig hvalue ha hbefore hfield htemplate =>
      exact integral_putConfig hs he hi hvalue ha hfield htemplate _
  | deleteConfig hc ha => exact integral_deleteConfig hs hi hc ha
  | deleteOrphan hc ha => exact absurd ha (Edit.not_orphan hi.grounded hc)
  | @putWebhook w h =>
      obtain ⟨a, ha⟩ := Snapshot.exists_app_of_contains h
      exact hi.insertHook rfl rfl rfl ha
  | @deleteWebhook key h =>
      refine hi.mono rfl (fun _ _ => id) ?_
      intro k w hw
      change (s.webhooks.erase key)[k]? = some w at hw
      rw [getElem?_erase_ite] at hw
      split at hw
      · cases hw
      · exact hw
  | putUser => exact hi.mono rfl (fun _ _ => id) fun _ _ => id
  | deleteUser => exact hi.mono rfl (fun _ _ => id) fun _ _ => id
  | putNode => exact hi.mono rfl (fun _ _ => id) fun _ _ => id
  | deleteNode => exact hi.mono rfl (fun _ _ => id) fun _ _ => id

theorem toNat_decremented (n : UInt32) : (decremented n).toNat = n.toNat - 1 := by
  unfold decremented
  split
  · rename_i hzero
    rw [hzero]
    rfl
  · rename_i hne
    have hpos : n.toNat ≠ 0 := fun h => hne (UInt32.toNat_inj.mp h)
    rw [UInt32.toNat_sub_of_le]
    · rfl
    · rw [UInt32.le_iff_toNat_le]
      exact Nat.one_le_iff_ne_zero.mpr hpos

section Counting

variable {t : Snapshot} {appKey : String} (hs : s.Coherent) (hcount : s.Counted appKey)
include hs hcount

/-- A config that is entered is counted, unless it takes the place of another one. -/
theorem counted_putConfig {c : Config} {a : App} (ha : s.apps[c.appKey]? = some a)
    (hbefore : ∀ b, s.configs[c.key]? = some b → b.entry.appKey = c.appKey)
    (happs : t.apps = s.apps.insert (entered sign a (s.configs[c.key]?.map (·.entry)) c).key
      (entered sign a (s.configs[c.key]?.map (·.entry)) c))
    (hconfigs : t.configs = s.configs.insert c.key c.compile)
    (hfits : t.configCount appKey < UInt32.size) : t.Counted appKey := by
  have hsize := Snapshot.configCount_insert hconfigs appKey
  refine hcount.insertApp happs ?_ ?_
  · -- a former config of the key belonged to the same app
    rw [key_entered, hs.app_key ha]
    intro hne
    cases hb : s.configs[c.key]? with
    | none => simpa [hb, hne.symm] using hsize
    | some b => simpa [hb, hbefore b hb, hne.symm] using hsize
  · rw [key_entered, hs.app_key ha, keyCount_entered]
    rintro rfl
    have hold := hcount a ha
    cases hb : s.configs[c.key]? with
    | none =>
        have hmore : t.configCount c.appKey = s.configCount c.appKey + 1 := by
          simpa [hb] using hsize
        have hnew : (a.keyCount + 1).toNat = a.keyCount.toNat + 1 := by
          rw [UInt32.toNat_add]
          show (a.keyCount.toNat + 1) % UInt32.size = a.keyCount.toNat + 1
          exact Nat.mod_eq_of_lt (by omega)
        simp [hnew, hold, hmore]
    | some b =>
        have hsame : t.configCount c.appKey = s.configCount c.appKey := by
          simpa [hb, hbefore b hb] using hsize
        simp [hold, hsame]

/-- A config that goes is counted no more. -/
theorem counted_deleteConfig {key : String} {c : CompiledConfig} {a : App}
    (hc : s.configs[key]? = some c) (ha : s.apps[c.entry.appKey]? = some a)
    (happs : t.apps = s.apps.insert (removed sign a c.entry).key (removed sign a c.entry))
    (hconfigs : t.configs = s.configs.erase key) : t.Counted appKey := by
  have hsize := Snapshot.configCount_erase hconfigs appKey
  refine hcount.insertApp happs ?_ ?_
  · rw [key_removed, hs.app_key ha]
    intro hne
    simpa [hc, hne.symm] using hsize
  · rw [key_removed, hs.app_key ha, keyCount_removed]
    rintro rfl
    have hold := hcount a ha
    have hless : t.configCount c.entry.appKey + 1 = s.configCount c.entry.appKey := by
      simpa [hc] using hsize
    rw [toNat_decremented]
    omega

end Counting

/-- The number of configs that an accepted request leaves to an app is that in the row of the app,
as long as the number fits into the row. -/
theorem Accepted.counted {w : Write} {changes : List Change} (h : Accepted sign s w changes)
    (hs : s.Coherent) (hi : s.Integral) {appKey : String} (hcount : s.Counted appKey)
    (hfits : (s.applyAll changes).configCount appKey < UInt32.size) :
    (s.applyAll changes).Counted appKey := by
  cases h with
  | @createApp key name type hname hnew =>
      refine hcount.insertApp rfl (fun _ => rfl) ?_
      rintro rfl
      have hnone : s.configCount appKey = 0 := by
        refine Snapshot.configCount_eq_zero ?_
        rintro k c hc rfl
        obtain ⟨a, ha⟩ := hi.homes k c hc
        rw [hnew] at ha
        cases ha
      exact hnone.symm
  | @updateApp key name type a hname ha htype =>
      obtain rfl := hs.app_key ha
      refine hcount.insertApp rfl (fun _ => rfl) ?_
      rintro rfl
      exact hcount a ha
  | @deleteApp key h hconfigs hreference =>
      intro a ha
      rw [Snapshot.apps_deleteApp_hooks _ kind_unhook, getElem?_erase_ite] at ha
      rw [Snapshot.configCount_congr (Snapshot.configs_deleteApp_hooks _ kind_unhook)]
      split at ha
      · cases ha
      · exact hcount a ha
  | @putConfig c a value hvalue ha hbefore hfield htemplate =>
      exact counted_putConfig hs hcount ha hbefore rfl rfl hfits
  | @deleteConfig key c a hc ha =>
      refine counted_deleteConfig hs hcount hc ha (s.apps_deleteConfig_upsert key _) ?_
      exact (Snapshot.tables_deleteConfig hc).2.1
  | deleteOrphan hc ha => exact absurd ha (Edit.not_orphan hi.grounded hc)
  | _ => exact hcount

end Write

/-! ## Masters -/

namespace Snapshot

theorem integral_initial (settings : Settings) (v : DataVersion) : (initial settings v).Integral :=
  .empty_apps (apps_initial ..) (configs_initial ..) (webhooks_initial ..)

theorem counted_initial (settings : Settings) (v : DataVersion) (appKey : String) :
    (initial settings v).Counted appKey := by
  intro a ha
  simp [apps_initial] at ha

variable {s t : Snapshot}

theorem Integral.congr (h : s.Integral) (happs : t.apps = s.apps) (hconfigs : t.configs = s.configs)
    (hhooks : t.webhooks = s.webhooks) : t.Integral :=
  h.mono happs (fun _ _ hc => hconfigs ▸ hc) fun _ _ hw => hhooks ▸ hw

theorem Counted.congr {appKey : String} (h : s.Counted appKey) (happs : t.apps = s.apps)
    (hconfigs : t.configs = s.configs) : t.Counted appKey := by
  intro a ha
  rw [configCount_congr hconfigs]
  exact h a (happs ▸ ha)

end Snapshot

/-- Masters keep references whole. -/
theorem invariant_integral :
    Invariant (fun _ => True) Snapshot.Integral fun _ _ => True where
  bounded_congr _ _ := trivial
  data_congr h hi := hi.congr h.apps_eq.symm h.configs_eq.symm h.webhooks_eq.symm
  own_congr _ _ := trivial
  initial v _ := ⟨Snapshot.integral_initial _ v, trivial⟩
  loaded _ _ _ := trivial
  claimed _ _ hi hd _ := by
    obtain ⟨happs, hconfigs, hhooks⟩ := hd.tables_eq
    exact ⟨hi.congr happs hconfigs hhooks, trivial⟩
  written hs he hi _ _ hw _ := ⟨hw.integral hs he hi, trivial⟩

/-- Masters count the configs of an app that never has too many. -/
theorem invariant_counted (appKey : String) :
    Invariant (fun s => s.configCount appKey < UInt32.size)
      (fun s => s.Integral ∧ s.Counted appKey) fun _ _ => True where
  bounded_congr h hb := by
    rwa [Snapshot.configCount_congr h.configs_eq.symm]
  data_congr h hd := ⟨invariant_integral.data_congr h hd.1,
    hd.2.congr h.apps_eq.symm h.configs_eq.symm⟩
  own_congr _ _ := trivial
  initial v _ := ⟨⟨Snapshot.integral_initial _ v, Snapshot.counted_initial _ v appKey⟩, trivial⟩
  loaded _ _ _ := trivial
  claimed _ _ hi hd _ := by
    obtain ⟨happs, hconfigs, hhooks⟩ := hd.tables_eq
    exact ⟨⟨hi.1.congr happs hconfigs hhooks, hi.2.congr happs hconfigs⟩, trivial⟩
  written hs he hi _ _ hw hb := ⟨⟨hw.integral hs he hi.1, hw.counted hs hi.1 hi.2 hb⟩, trivial⟩

namespace Host

/-- In every state of a master that is written by operators, running or stored, all references are
whole; and an app counts its configs, if it never had more than the count can say. -/
theorem referential_integrity {actions : List Action}
    (hactions : ∀ a ∈ actions, a.StartsAs .master ∧ a.ByOperators) {s : Snapshot}
    (hheld : (run actions).Held s) :
    s.Integral ∧ ∀ appKey,
      (∀ before, before <+: actions → ∀ sv, (run before).running = some sv →
        sv.snapshot.configCount appKey < UInt32.size) → s.Counted appKey := by
  constructor
  · exact (invariant_integral.run hactions fun _ _ _ _ => trivial).1.held s hheld
  · intro appKey hfits
    exact ((invariant_counted appKey).run hactions hfits).1.held s hheld |>.2

/-- A template and an app that inlines it, with a web hook.  The template is not removed, nor is a
config as long as commits fail; then the config is removed, and the master is started again. -/
def referenceRun : List Action :=
  [.start ⟨"http://m", .master, none, false⟩ ⟨300, 0, 2⟩ ⟨.epoch, "v0", "t0"⟩,
    .request (.write ⟨.epoch, "v1", "t1"⟩ none (.putApp "T" "tmpl" .template)),
    .request (.write ⟨.epoch, "v2", "t2"⟩ none (.putApp "A" "app" .real)),
    .request (.write ⟨.epoch, "v3", "t3"⟩ none (.putWebhook ⟨"w", "A", "http://h", .active⟩)),
    .request (.write ⟨.epoch, "v4", "t4"⟩ none
      (.putConfig ⟨"c", "A", "f", "T", .template, .active⟩)),
    .request (.write ⟨.epoch, "v5", "t5"⟩ none
      (.putConfig ⟨"d", "A", "g", "x", .string, .active⟩)),
    .request (.write ⟨.epoch, "v6", "t6"⟩ none (.deleteApp "T")),
    .failNextCommit,
    .request (.write ⟨.epoch, "v7", "t7"⟩ none (.deleteConfig "d")),
    .request (.write ⟨.epoch, "v8", "t8"⟩ none (.deleteConfig "d")),
    .stop,
    .start ⟨"http://m", .master, none, false⟩ ⟨300, 0, 2⟩ ⟨.epoch, "v9", "t9"⟩]

/-- One config is left, and counted. -/
theorem referential_integrity_referenceRun : ∃ s, (run referenceRun).Held s ∧ s.Integral ∧
    s.Counted "A" ∧ s.apps["A"]?.map (·.keyCount) = some 1 ∧ s.configCount "A" = 1 := by
  have hactions : ∀ a ∈ referenceRun, a.StartsAs .master ∧ a.ByOperators := by
    simp [referenceRun, Action.StartsAs, Action.ByOperators]
  have hheld : (run referenceRun).Held (run referenceRun).storage.load :=
    Or.inl ⟨by decide +kernel, rfl⟩
  obtain ⟨hintegral, hcounted⟩ := referential_integrity hactions hheld
  have hfits : ∀ before ∈ referenceRun.inits, ∀ sv ∈ (run before).running,
      sv.snapshot.configCount "A" < UInt32.size := by
    decide +kernel
  refine ⟨_, hheld, hintegral, hcounted "A" ?_, by decide +kernel, by decide +kernel⟩
  intro before hbefore
  exact hfits before (List.mem_inits before _ |>.mpr hbefore)

end Host

end RemoteConfig
