import RemoteConfig.Proofs.Dump
import RemoteConfig.Snapshot.Resolve
/-! # Derived indexes

A snapshot finds apps by name, and the configs of an app, through two derived indexes.  They are
*exact* if they say what the entities determine.  Arbitrary changes can break that: an app can take
a name that is in use, or go before its configs do.  Changes that do neither are *admitted*; they
keep the indexes exact, whatever the way on which a snapshot was built. -/

namespace RemoteConfig

open Table

namespace Snapshot

/-! ## Single updates -/

theorem mem_index {t : Table Keys} {appKey key a k : String} :
    k ∈ (index t appKey key)[a]?.getD ∅ ↔ (a = appKey ∧ k = key) ∨ k ∈ t[a]?.getD ∅ := by
  rw [index, getElem?_insert_ite]
  by_cases ha : a = appKey
  · subst ha
    rw [if_pos rfl, Option.getD_some, mem_insert_set]
    simp
  · simp [ha]

theorem mem_unindex {t : Table Keys} {appKey key a k : String} :
    k ∈ (unindex t appKey key)[a]?.getD ∅ ↔ k ∈ t[a]?.getD ∅ ∧ ¬ (a = appKey ∧ k = key) := by
  unfold unindex
  cases hkeys : t[appKey]? with
  | none =>
      by_cases ha : a = appKey
      · subst ha
        simp [hkeys]
      · simp [ha]
  | some keys =>
      have herase : k ∈ keys.erase key ↔ k ∈ keys ∧ k ≠ key := mem_erase_set
      dsimp only
      split
      · rename_i hrest
        rw [Std.ExtTreeSet.isEmpty_iff.mp hrest] at herase
        rw [getElem?_erase_ite]
        by_cases ha : a = appKey
        · subst ha
          rw [if_pos rfl, hkeys, Option.getD_none, Option.getD_some, herase]
          simp
        · simp [ha]
      · rw [getElem?_insert_ite]
        by_cases ha : a = appKey
        · subst ha
          rw [if_pos rfl, hkeys, Option.getD_some, Option.getD_some, herase]
          simp
        · simp [ha]

/-! ## Exact indexes -/

/-- The derived indexes say what the entities determine. -/
structure Exact (s : Snapshot) : Prop where
  names : ∀ name key : String, s.appsByName[name]? = some key ↔
    ∃ a, s.apps[key]? = some a ∧ a.name = name
  configs : ∀ appKey key : String, key ∈ s.appConfigKeys[appKey]?.getD ∅ ↔
    ∃ c, s.configs[key]? = some c ∧ c.entry.appKey = appKey

theorem exact_empty : empty.Exact := ⟨by simp [empty], by simp [empty]⟩

theorem Exact.setVersion {s : Snapshot} (hs : s.Exact) (v : DataVersion) :
    { s with dataVersion := v }.Exact := ⟨hs.names, hs.configs⟩

/-- No two apps have the same name. -/
theorem Exact.name_unique {s : Snapshot} (hs : s.Exact) {k k' : String} {a b : App}
    (ha : s.apps[k]? = some a) (hb : s.apps[k']? = some b) (h : a.name = b.name) : k = k' := by
  have hk := (hs.names a.name k).mpr ⟨a, ha, rfl⟩
  have hk' := (hs.names a.name k').mpr ⟨b, hb, h.symm⟩
  exact Option.some.inj (hk.symm.trans hk')

/-- Under another name than that of an app that is entered, the index keeps all other apps. -/
theorem Exact.appsByName_upsertApp {s : Snapshot} (hs : s.Exact) {a : App} {name key : String}
    (hname : name ≠ a.name) :
    (s.upsertApp a).appsByName[name]? = some key ↔
      key ≠ a.key ∧ s.appsByName[name]? = some key := by
  have hindexed : s.appsByName[name]? = some a.key → ∃ b, s.apps[a.key]? = some b ∧ b.name = name :=
    (hs.names name a.key).mp
  cases hprev : s.apps[a.key]? with
  | none =>
      simp only [upsertApp, hprev, getElem?_insert_ite, if_neg hname]
      refine ⟨fun h => ⟨?_, h⟩, And.right⟩
      rintro rfl
      obtain ⟨b, hb, -⟩ := hindexed h
      rw [hprev] at hb
      cases hb
  | some previous =>
      rw [hprev] at hindexed
      simp only [upsertApp, hprev, getElem?_insert_ite, if_neg hname]
      split
      · rename_i hsame
        refine ⟨fun h => ⟨?_, h⟩, And.right⟩
        rintro rfl
        obtain ⟨b, hb, rfl⟩ := hindexed h
        cases hb
        exact hname hsame
      · rw [getElem?_erase_ite]
        by_cases hformer : name = previous.name
        · -- the former name belonged to the app itself
          have hown : s.appsByName[name]? = some a.key :=
            (hs.names name a.key).mpr ⟨previous, hprev, hformer.symm⟩
          rw [if_pos hformer, hown]
          constructor
          · intro h
            cases h
          · rintro ⟨hkey, h⟩
            exact absurd (Option.some.inj h).symm hkey
        · rw [if_neg hformer]
          refine ⟨fun h => ⟨?_, h⟩, And.right⟩
          rintro rfl
          obtain ⟨b, hb, rfl⟩ := hindexed h
          cases hb
          exact hformer rfl

theorem Exact.upsertApp {s : Snapshot} (hs : s.Exact) {a : App}
    (hfree : ∀ (k : String) b, s.apps[k]? = some b → b.name = a.name → k = a.key) :
    (s.upsertApp a).Exact where
  configs := hs.configs
  names name key := by
    have happs : (s.upsertApp a).apps[key]? = if key = a.key then some a else s.apps[key]? :=
      getElem?_insert_ite _ _ _ _
    rw [happs]
    by_cases hname : name = a.name
    · subst hname
      have hentered : (s.upsertApp a).appsByName[a.name]? = some a.key := by
        show (Std.ExtTreeMap.insert _ a.name a.key)[a.name]? = _
        rw [getElem?_insert_ite, if_pos rfl]
      rw [hentered]
      -- the name leads to the app that was entered, and no other app may have it
      constructor
      · rintro ⟨⟩
        exact ⟨a, if_pos rfl, rfl⟩
      · rintro ⟨b, hb, hbname⟩
        split at hb
        · rename_i hkey
          rw [hkey]
        · rw [hfree key b hb hbname]
    · rw [hs.appsByName_upsertApp hname, hs.names]
      by_cases hkey : key = a.key
      · simp [hkey, Ne.symm hname]
      · simp [hkey]

theorem Exact.deleteApp {s : Snapshot} (hs : s.Exact) {key : String}
    (hfree : ∀ (k : String) c, s.configs[k]? = some c → c.entry.appKey ≠ key) :
    (s.deleteApp key).Exact where
  configs appKey k := by
    show k ∈ (s.appConfigKeys.erase key)[appKey]?.getD ∅ ↔ _
    rw [getElem?_erase_ite]
    by_cases happ : appKey = key
    · subst happ
      rw [if_pos rfl, Option.getD_none]
      refine ⟨fun h => absurd h Std.ExtTreeSet.not_mem_empty, ?_⟩
      rintro ⟨c, hc, hkey⟩
      exact absurd hkey (hfree k c hc)
    · rw [if_neg happ]
      exact hs.configs appKey k
  names name k := by
    have happs : (s.deleteApp key).apps[k]? = if k = key then none else s.apps[k]? :=
      getElem?_erase_ite _ _ _
    rw [happs]
    cases hgone : s.apps[key]? with
    | none =>
        simp only [Snapshot.deleteApp, hgone]
        rw [hs.names]
        by_cases hk : k = key
        · simp [hk, hgone]
        · simp [hk]
    | some a =>
        simp only [Snapshot.deleteApp, hgone]
        rw [getElem?_erase_ite]
        -- the index loses the name of the app that goes; no app that stays has that name
        by_cases hname : name = a.name
        · subst hname
          rw [if_pos rfl]
          constructor
          · intro h
            cases h
          · rintro ⟨b, hb, hbname⟩
            split at hb
            · cases hb
            · rename_i hk
              exact absurd (hs.name_unique hb hgone hbname) hk
        · rw [if_neg hname, hs.names]
          by_cases hk : k = key
          · simp [hk, hgone, Ne.symm hname]
          · simp [hk]

theorem Exact.upsertConfig {s : Snapshot} (hs : s.Exact) (c : Config) :
    (s.upsertConfig c).Exact where
  names := hs.names
  configs appKey key := by
    have hconfigs : (s.upsertConfig c).configs[key]? =
        if key = c.key then some c.compile else s.configs[key]? := getElem?_insert_ite _ _ _ _
    have hkeys : key ∈ (s.upsertConfig c).appConfigKeys[appKey]?.getD ∅ ↔
        (appKey = c.appKey ∧ key = c.key) ∨ (key ≠ c.key ∧ key ∈ s.appConfigKeys[appKey]?.getD ∅) := by
      have hold : c.key ∈ s.appConfigKeys[appKey]?.getD ∅ ↔
          ∃ c', s.configs[c.key]? = some c' ∧ c'.entry.appKey = appKey := hs.configs appKey c.key
      cases hprev : s.configs[c.key]? with
      | none =>
          simp only [Snapshot.upsertConfig, hprev, mem_index]
          rw [hprev] at hold
          by_cases hkey : key = c.key
          · subst hkey
            simp [hold]
          · simp [hkey]
      | some previous =>
          rw [hprev] at hold
          simp only [Snapshot.upsertConfig, hprev, mem_index]
          split
          · rename_i hsame
            by_cases hkey : key = c.key
            · subst hkey
              simp [hold, ← hsame, eq_comm]
            · simp [hkey]
          · rw [mem_unindex]
            by_cases hkey : key = c.key
            · subst hkey
              simp [hold, eq_comm]
            · simp [hkey]
    rw [hkeys, hconfigs, hs.configs]
    by_cases hkey : key = c.key
    · simp [hkey, Config.compile, eq_comm]
    · simp [hkey]

theorem Exact.deleteConfig {s : Snapshot} (hs : s.Exact) (key : String) :
    (s.deleteConfig key).Exact := by
  unfold Snapshot.deleteConfig
  cases hgone : s.configs[key]? with
  | none => exact hs
  | some c =>
      refine ⟨hs.names, ?_⟩
      intro appKey k
      rw [mem_unindex, hs.configs, getElem?_erase_ite]
      by_cases hk : k = key
      · subst hk
        simp [hgone, eq_comm]
      · simp [hk]

end Snapshot

/-! ## Admitted changes -/

namespace Holdings

/-- A change that gives no app the name of another one, and removes no app that has configs. -/
def Admits (m : Holdings) : Change → Prop
  | .upsert (.app a) => ∀ k b, m ⟨.app, k⟩ = some (.app b) → b.name = a.name → k = a.key
  | .delete ⟨.app, key⟩ => ∀ k c, m ⟨.config, k⟩ = some (.config c) → c.appKey ≠ key
  | _ => True

/-- Changes each of which is admitted when its turn comes. -/
def AdmitsAll : Holdings → List Change → Prop
  | _, [] => True
  | m, c :: rest => m.Admits c ∧ AdmitsAll (m.apply c) rest

end Holdings

namespace Snapshot

theorem entity?_app_eq_some {s : Snapshot} {key : String} {a : App} :
    s.entity? ⟨.app, key⟩ = some (.app a) ↔ s.apps[key]? = some a := by
  simp [entity?]

theorem entity?_config_eq_some {s : Snapshot} {key : String} {c : Config} :
    s.entity? ⟨.config, key⟩ = some (.config c) ↔ ∃ c', s.configs[key]? = some c' ∧ c'.entry = c := by
  simp [entity?]

/-- An admitted change keeps the indexes exact. -/
theorem Exact.apply {s : Snapshot} (hs : s.Exact) {c : Change} (hc : s.entity?.Admits c) :
    (s.apply c).Exact := by
  rcases c with e | ⟨kind, key⟩
  · cases e with
    | app a => exact hs.upsertApp fun k b hb => hc k b (entity?_app_eq_some.mpr hb)
    | config c => exact hs.upsertConfig c
    | user u => exact ⟨hs.names, hs.configs⟩
    | webhook w => exact ⟨hs.names, hs.configs⟩
    | node n => exact ⟨hs.names, hs.configs⟩
  · cases kind with
    | app => exact hs.deleteApp fun k c hc' => hc k c.entry (entity?_config_eq_some.mpr ⟨c, hc', rfl⟩)
    | config => exact hs.deleteConfig key
    | user => exact ⟨hs.names, hs.configs⟩
    | webhook => exact ⟨hs.names, hs.configs⟩
    | node => exact ⟨hs.names, hs.configs⟩

theorem Exact.applyAll : ∀ {changes : List Change} {s : Snapshot}, s.Exact →
    s.entity?.AdmitsAll changes → (s.applyAll changes).Exact
  | [], _, hs, _ => hs
  | c :: rest, s, hs, hc => by
      refine Exact.applyAll (s := s.apply c) (hs.apply hc.1) ?_
      rw [entity?_apply]
      exact hc.2

theorem Exact.advance {s : Snapshot} (hs : s.Exact) {d : Delta}
    (hd : s.entity?.AdmitsAll d.changes) (v : DataVersion) : (s.advance d v).Exact :=
  (hs.applyAll hd).setVersion v

end Snapshot

/-! ## What admission depends on -/

theorem Entity.eq_of_withoutProgress {e e' : Entity} (h : e.withoutProgress = e')
    (he' : e'.kind ≠ .node) : e = e' := by
  cases e with
  | node n =>
      subst h
      exact absurd rfl he'
  | _ => exact h

namespace Holdings

/-- No two apps have the same name. -/
def NamesUnique (m : Holdings) : Prop :=
  ∀ k k' a b, m ⟨.app, k⟩ = some (.app a) → m ⟨.app, k'⟩ = some (.app b) → a.name = b.name → k = k'

/-- Beside nodes, what agrees apart from progress agrees. -/
theorem eq_some_of_withoutProgress {m m' : Holdings} (hm : m.withoutProgress = m'.withoutProgress)
    {k : EntityKey} {e : Entity} (he : e.kind ≠ .node) (h : m' k = some e) : m k = some e := by
  have hk : (m k).map Entity.withoutProgress = (m' k).map Entity.withoutProgress := congrFun hm k
  have hsame : e.withoutProgress = e := by
    cases e with
    | node n => exact absurd rfl he
    | _ => rfl
  rw [h, Option.map_some, hsame] at hk
  obtain ⟨e', he', heq⟩ := Option.map_eq_some_iff.mp hk
  rw [he', Entity.eq_of_withoutProgress heq he]

theorem NamesUnique.congr {m m' : Holdings} (h : m.NamesUnique)
    (hm : m.withoutProgress = m'.withoutProgress) : m'.NamesUnique := fun k k' a b ha hb =>
  h k k' a b (eq_some_of_withoutProgress hm nofun ha) (eq_some_of_withoutProgress hm nofun hb)

theorem Admits.congr {m m' : Holdings} {c c' : Change} (h : m.Admits c)
    (hm : m.withoutProgress = m'.withoutProgress) (hc : c.withoutProgress = c'.withoutProgress) :
    m'.Admits c' := by
  rcases c' with e' | ⟨kind, key⟩
  · cases e' with
    | app a =>
        obtain rfl : c = .upsert (.app a) := by
          rcases c with e | k
          · rw [Entity.eq_of_withoutProgress (Change.upsert.inj hc) nofun]
            rfl
          · cases hc
        exact fun k b hb => h k b (eq_some_of_withoutProgress hm nofun hb)
    | _ => exact trivial
  · cases kind with
    | app =>
        obtain rfl : c = .delete ⟨.app, key⟩ := by
          rcases c with e | k
          · cases hc
          · exact hc
        exact fun k c hc => h k c (eq_some_of_withoutProgress hm nofun hc)
    | _ => exact trivial

theorem AdmitsAll.congr : ∀ {changes changes' : List Change} {m m' : Holdings},
    m.AdmitsAll changes → m.withoutProgress = m'.withoutProgress →
      changes.map Change.withoutProgress = changes'.map Change.withoutProgress →
        m'.AdmitsAll changes'
  | [], [], _, _, _, _, _ => trivial
  | [], _ :: _, _, _, _, _, hc => nomatch hc
  | _ :: _, [], _, _, _, _, hc => nomatch hc
  | c :: rest, c' :: rest', m, m', h, hm, hc => by
      obtain ⟨hfirst, hrest⟩ := List.cons.inj hc
      refine ⟨h.1.congr hm hfirst, h.2.congr ?_ hrest⟩
      rw [withoutProgress_apply, withoutProgress_apply, hm, hfirst]

theorem admitsAll_append : ∀ {first second : List Change} {m : Holdings},
    m.AdmitsAll (first ++ second) ↔ m.AdmitsAll first ∧ (m.applyAll first).AdmitsAll second
  | [], _, _ => ⟨fun h => ⟨trivial, h⟩, And.right⟩
  | c :: rest, second, m => by
      rw [List.cons_append, AdmitsAll, AdmitsAll, admitsAll_append, and_assoc]
      rfl

/-- Entities can be entered one by one if no two apps among them share a name, nor does one share
it with an app that is there. -/
theorem admitsAll_upserts : ∀ {entities : List Entity} {m : Holdings},
    (∀ a b, .app a ∈ entities → .app b ∈ entities → a.name = b.name → a.key = b.key) →
    (∀ k b a, m ⟨.app, k⟩ = some (.app b) → .app a ∈ entities → b.name = a.name → k = a.key) →
      m.AdmitsAll (entities.map .upsert)
  | [], _, _, _ => trivial
  | e :: rest, m, huniq, hold => by
      constructor
      · cases e with
        | app a => exact fun k b hb hname => hold k b a hb List.mem_cons_self hname
        | _ => exact trivial
      · refine admitsAll_upserts (fun a b ha hb =>
          huniq a b (List.mem_cons_of_mem _ ha) (List.mem_cons_of_mem _ hb)) ?_
        intro k b a hb ha hname
        rw [apply, Function.update_apply] at hb
        split at hb
        · rename_i hk
          obtain rfl : e = .app b := Option.some.inj hb
          obtain rfl : k = b.key := congrArg EntityKey.key hk
          exact huniq b a List.mem_cons_self (List.mem_cons_of_mem _ ha) hname
        · exact hold k b a hb (List.mem_cons_of_mem _ ha) hname

end Holdings

theorem Replica.admitsAll_touchOwn {m : Holdings} {d : Delta} (h : m.AdmitsAll d.changes)
    (url : String) (s : Snapshot) (next : DataVersion) :
    m.AdmitsAll (touchOwn url s d next).changes := by
  unfold touchOwn
  split
  · refine h.congr rfl ?_
    rw [List.map_map]
    exact List.map_congr_left fun c _ => (withoutProgress_stampOwn url next.version c).symm
  · split
    · exact Holdings.admitsAll_append.mpr ⟨h, trivial, trivial⟩
    · exact h

namespace Snapshot

theorem Exact.namesUnique {s : Snapshot} (hs : s.Exact) : s.entity?.NamesUnique :=
  fun _ _ _ _ ha hb => hs.name_unique (entity?_app_eq_some.mp ha) (entity?_app_eq_some.mp hb)

/-- A snapshot that is built from entities with different names is exact. -/
theorem exact_ofEntities {m : Holdings} (hm : m.NamesUnique) {v : DataVersion}
    {entities : List Entity} (h : ∀ e ∈ entities, m e.key = some e) :
    (ofEntities v entities).Exact := by
  refine (exact_empty.setVersion v).applyAll ?_
  rw [entity?_dataVersion, entity?_empty]
  refine Holdings.admitsAll_upserts (fun a b ha hb hname => ?_) nofun
  exact hm a.key b.key a b (h _ ha) (h _ hb) hname

/-! ## Reading through the indexes -/

variable {s t : Snapshot}

theorem Exact.appsByName_eq (hs : s.Exact) (ht : t.Exact) (happs : s.apps = t.apps) :
    s.appsByName = t.appsByName := by
  refine Std.ExtTreeMap.ext_getElem? fun {name} => Option.ext ?_
  intro key
  rw [hs.names, ht.names, happs]

theorem Exact.findApp?_eq (hs : s.Exact) (ht : t.Exact) (happs : s.apps = t.apps) (name : String) :
    s.findApp? name = t.findApp? name := by
  rw [findApp?, findApp?, app?, app?, appByName?, appByName?, hs.appsByName_eq ht happs, happs]

/-- The configs of an app are indexed in one way. -/
theorem Exact.configKeys_eq (hs : s.Exact) (ht : t.Exact) (hconfigs : s.configs = t.configs)
    (appKey : String) :
    s.appConfigKeys[appKey]?.getD ∅ = t.appConfigKeys[appKey]?.getD ∅ := by
  refine Std.ExtTreeSet.ext_mem ?_
  intro key
  rw [hs.configs, ht.configs, hconfigs]

theorem Exact.appConfigs_eq (hs : s.Exact) (ht : t.Exact) (hconfigs : s.configs = t.configs)
    (appKey : String) : s.appConfigs appKey = t.appConfigs appKey := by
  rw [appConfigs, appConfigs, hs.configKeys_eq ht hconfigs, hconfigs]

theorem Exact.mem_appConfigs (hs : s.Exact) {appKey : String} {c : CompiledConfig} :
    c ∈ s.appConfigs appKey ↔ ∃ key : String, s.configs[key]? = some c ∧ c.entry.appKey = appKey := by
  simp only [appConfigs, List.mem_filterMap, Std.ExtTreeSet.mem_toList, hs.configs]
  constructor
  · rintro ⟨key, ⟨c', hc', happ⟩, hc⟩
    obtain rfl : c' = c := Option.some.inj (hc'.symm.trans hc)
    exact ⟨key, hc, happ⟩
  · rintro ⟨key, hc, happ⟩
    exact ⟨key, ⟨c, hc, happ⟩, hc⟩

theorem Exact.appByName?_eq_some (hs : s.Exact) {key : String} {a : App}
    (ha : s.apps[key]? = some a) : s.appByName? a.name = some a := by
  rw [appByName?, (hs.names a.name key).mpr ⟨a, ha, rfl⟩]
  exact ha

/-- A name that is found for one key at most is the name of no other app. -/
theorem Exact.eq_key_of_free (hs : s.Exact) (hk : s.Coherent) {name key key' : String} {a : App}
    (hfree : ∀ b, s.appByName? name = some b → b.key = key) (ha : s.apps[key']? = some a)
    (hname : a.name = name) : key' = key := by
  rw [← hfree a (hname ▸ hs.appByName?_eq_some ha), hk.app_key ha]

/-- An app without configs in its index has none. -/
theorem Exact.ne_appKey_of_appConfigs_eq_nil (hs : s.Exact) {appKey : String}
    (hconfigs : s.appConfigs appKey = []) {key : String} {c : CompiledConfig}
    (hc : s.configs[key]? = some c) : c.entry.appKey ≠ appKey := by
  intro happ
  have hmem := hs.mem_appConfigs.mpr ⟨key, hc, happ⟩
  rw [hconfigs] at hmem
  exact absurd hmem List.not_mem_nil

theorem Exact.activeValues_eq (hs : s.Exact) (ht : t.Exact) (hconfigs : s.configs = t.configs)
    (appKey : String) : s.activeValues appKey = t.activeValues appKey := by
  rw [activeValues, activeValues, hs.appConfigs_eq ht hconfigs]

end Snapshot

end RemoteConfig
