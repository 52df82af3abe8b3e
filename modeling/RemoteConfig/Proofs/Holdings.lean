import Mathlib.Logic.Function.Basic
import RemoteConfig.Proofs.Table
import RemoteConfig.Snapshot.Dump
/-! # Holdings

Two snapshots that hold the same entities may have been built in different ways.  What they have in
common is the map from keys to entities, their *holdings*.  A change is an update of the holdings at
one key, and the dump is a function of the holdings and the data version. -/

namespace RemoteConfig

/-- What is held under each key. -/
abbrev Holdings := EntityKey → Option Entity

/-- What a change leaves under its key. -/
def Change.outcome : Change → Option Entity
  | upsert e => some e
  | delete _ => none

namespace Holdings

def empty : Holdings := fun _ => none

def apply (m : Holdings) (c : Change) : Holdings := Function.update m c.key c.outcome

def applyAll (m : Holdings) (changes : List Change) : Holdings := changes.foldl apply m

theorem applyAll_cons (m : Holdings) (c : Change) (rest : List Change) :
    m.applyAll (c :: rest) = (m.apply c).applyAll rest := rfl

theorem applyAll_append (m : Holdings) (first second : List Change) :
    m.applyAll (first ++ second) = (m.applyAll first).applyAll second :=
  List.foldl_append

/-- Changes of other keys do not matter. -/
theorem applyAll_of_not_mem {k : EntityKey} : ∀ {changes : List Change} {m : Holdings},
    (∀ c ∈ changes, c.key ≠ k) → m.applyAll changes k = m k
  | [], _, _ => rfl
  | c :: rest, m, h => by
      have hc : k ≠ c.key := fun e => h c List.mem_cons_self e.symm
      rw [applyAll_cons, applyAll_of_not_mem fun c' hc' => h c' (List.mem_cons_of_mem _ hc'),
        apply, Function.update_of_ne hc]

/-- If a key is changed at all, it does not matter what was there before. -/
theorem applyAll_congr {k : EntityKey} : ∀ {changes : List Change} {m m' : Holdings},
    (m k = m' k ∨ ∃ c ∈ changes, c.key = k) → m.applyAll changes k = m'.applyAll changes k
  | [], _, _, h => by
      rcases h with h | ⟨c, hc, _⟩
      · exact h
      · exact absurd hc List.not_mem_nil
  | c :: rest, m, m', h => by
      rw [applyAll_cons, applyAll_cons]
      apply applyAll_congr
      by_cases hk : k = c.key
      · left
        subst hk
        simp [apply]
      · rcases h with h | ⟨c', hc', rfl⟩
        · left
          simp [apply, Function.update_of_ne hk, h]
        · rcases List.mem_cons.mp hc' with rfl | hmem
          · exact absurd rfl hk
          · exact Or.inr ⟨c', hmem, rfl⟩

theorem empty_applyAll_deletes (keys : List EntityKey) (k : EntityKey) :
    empty.applyAll (keys.map .delete) k = none := by
  have h : empty.applyAll (keys.map .delete) = empty := by
    induction keys with
    | nil => rfl
    | cons k' rest ih =>
        rw [List.map_cons, applyAll_cons, apply, Change.outcome, Function.update_eq_self_iff.mpr]
        · exact ih
        · rfl
  rw [h]
  rfl

/-- An entity that is entered stays, if no other one is entered under its key. -/
theorem applyAll_upserts {e : Entity} : ∀ {entities : List Entity} {m : Holdings},
    e ∈ entities → (∀ e' ∈ entities, e'.key = e.key → e' = e) →
      m.applyAll (entities.map .upsert) e.key = some e
  | e' :: rest, m, hmem, huniq => by
      rw [List.map_cons, applyAll_cons]
      by_cases hrest : e ∈ rest
      · exact applyAll_upserts hrest fun d hd => huniq d (List.mem_cons_of_mem _ hd)
      · have he : e = e' := by simpa [hrest] using hmem
        subst he
        rw [applyAll_of_not_mem]
        · simp [apply, Change.key, Change.outcome]
        · intro c hc hkey
          obtain ⟨d, hd, rfl⟩ := List.mem_map.mp hc
          exact hrest (huniq d (List.mem_cons_of_mem _ hd) hkey ▸ hd)

end Holdings

namespace Snapshot

/-- The holdings of a snapshot. -/
def entity? (s : Snapshot) : Holdings := fun k =>
  match k.kind with
  | .user => s.users[k.key]?.map .user
  | .app => s.apps[k.key]?.map .app
  | .config => s.configs[k.key]?.map fun c => .config c.entry
  | .webhook => s.webhooks[k.key]?.map .webhook
  | .node => s.nodes[k.key]?.map .node

@[simp]
theorem entity?_empty : empty.entity? = Holdings.empty := by
  funext ⟨kind, key⟩
  cases kind <;> simp [entity?, empty, Holdings.empty]

@[simp]
theorem entity?_dataVersion (s : Snapshot) (v : DataVersion) :
    { s with dataVersion := v }.entity? = s.entity? := rfl

theorem contains_eq_isSome (s : Snapshot) (k : EntityKey) :
    s.contains k = (s.entity? k).isSome := by
  obtain ⟨kind, key⟩ := k
  cases kind <;>
    simp [contains, entity?]

/-! ## Changes -/

open Table in
theorem entity?_upsert (s : Snapshot) (e : Entity) :
    (s.upsert e).entity? = Function.update s.entity? e.key (some e) := by
  funext ⟨kind, key⟩
  cases e <;> cases kind <;>
    simp [upsert, upsertApp, upsertConfig, entity?, Entity.key, Function.update_apply,
      getElem?_insert_ite, Config.compile] <;> split <;> rfl

open Table in
theorem entity?_deleteConfig (s : Snapshot) (key : String) :
    (s.deleteConfig key).entity? = Function.update s.entity? ⟨.config, key⟩ none := by
  funext ⟨kind, key'⟩
  unfold deleteConfig
  split
  · cases kind <;> simp [entity?, Function.update_apply, getElem?_erase_ite]
    split <;> rfl
  · rename_i h
    by_cases hk : (⟨kind, key'⟩ : EntityKey) = ⟨.config, key⟩
    · cases hk
      simp [entity?, h]
    · rw [Function.update_of_ne hk]

open Table in
theorem entity?_delete (s : Snapshot) (k : EntityKey) :
    (s.delete k).entity? = Function.update s.entity? k none := by
  obtain ⟨kind, key⟩ := k
  cases kind with
  | config => exact entity?_deleteConfig s key
  | _ =>
      funext ⟨kind', key'⟩
      cases kind' <;>
        simp [delete, deleteApp, entity?, Function.update_apply, getElem?_erase_ite]
      split <;> rfl

/-- A change acts on the holdings, whatever else the snapshot keeps. -/
theorem entity?_apply (s : Snapshot) (c : Change) : (s.apply c).entity? = s.entity?.apply c := by
  cases c with
  | upsert e => exact entity?_upsert s e
  | delete k => exact entity?_delete s k

theorem entity?_applyAll (changes : List Change) : ∀ s : Snapshot,
    (s.applyAll changes).entity? = s.entity?.applyAll changes := by
  induction changes with
  | nil => exact fun _ => rfl
  | cons c rest ih =>
      intro s
      rw [Holdings.applyAll_cons, ← entity?_apply, ← ih]
      rfl

@[simp]
theorem entity?_advance (s : Snapshot) (d : Delta) (v : DataVersion) :
    (s.advance d v).entity? = s.entity?.applyAll d.changes :=
  entity?_applyAll d.changes s

@[simp]
theorem dataVersion_advance (s : Snapshot) (d : Delta) (v : DataVersion) :
    (s.advance d v).dataVersion = v := rfl

theorem dataVersion_apply (s : Snapshot) (c : Change) :
    (s.apply c).dataVersion = s.dataVersion := by
  rcases c with e | ⟨kind, key⟩
  · cases e <;> rfl
  · cases kind with
    | config =>
        simp only [apply, delete, deleteConfig]
        split <;> rfl
    | _ => rfl

theorem dataVersion_applyAll (changes : List Change) : ∀ s : Snapshot,
    (s.applyAll changes).dataVersion = s.dataVersion := by
  induction changes with
  | nil => exact fun _ => rfl
  | cons c rest ih => exact fun s => (ih (s.apply c)).trans (dataVersion_apply s c)

/-! ## Coherence

Whatever the changes, a snapshot keeps every entity under its own key and every config with the
value it decodes to.  Then the holdings determine the tables of entities. -/

/-- Entities are under their own keys, and configs are decoded. -/
structure Coherent (s : Snapshot) : Prop where
  keyed : ∀ k e, s.entity? k = some e → e.key = k
  compiled : ∀ (key : String) c, s.configs[key]? = some c → c = c.entry.compile

theorem coherent_empty : empty.Coherent where
  keyed := by simp [Holdings.empty]
  compiled := by simp [empty]

open Table in
theorem Coherent.apply {s : Snapshot} (hs : s.Coherent) (c : Change) : (s.apply c).Coherent where
  keyed k e h := by
    rw [entity?_apply, Holdings.apply, Function.update_apply] at h
    split at h
    · rename_i hk
      subst hk
      cases c with
      | upsert e' => cases h; rfl
      | delete k => cases h
    · exact hs.keyed k e h
  compiled key c' h := by
    rcases c with e | ⟨kind, key'⟩
    · cases e with
      | config c =>
          change (s.configs.insert c.key c.compile)[key]? = some c' at h
          rw [getElem?_insert_ite] at h
          split at h
          · cases h; rfl
          · exact hs.compiled key c' h
      | _ => exact hs.compiled key c' h
    · cases kind with
      | config =>
          simp only [Snapshot.apply, delete, deleteConfig] at h
          split at h
          · rw [getElem?_erase_ite] at h
            split at h
            · cases h
            · exact hs.compiled key c' h
          · exact hs.compiled key c' h
      | _ => exact hs.compiled key c' h

theorem Coherent.setVersion {s : Snapshot} (hs : s.Coherent) (v : DataVersion) :
    { s with dataVersion := v }.Coherent := ⟨hs.keyed, hs.compiled⟩

theorem Coherent.applyAll {s : Snapshot} (hs : s.Coherent) (changes : List Change) :
    (s.applyAll changes).Coherent := by
  induction changes generalizing s with
  | nil => exact hs
  | cons c rest ih => exact ih (hs.apply c)

theorem Coherent.advance {s : Snapshot} (hs : s.Coherent) (d : Delta) (v : DataVersion) :
    (s.advance d v).Coherent := (hs.applyAll d.changes).setVersion v

theorem coherent_ofEntities (v : DataVersion) (entities : List Entity) :
    (ofEntities v entities).Coherent := (coherent_empty.setVersion v).applyAll _

theorem coherent_ofDump (d : Dump) : (ofDump d).Coherent := coherent_ofEntities _ _

theorem Coherent.app_key {s : Snapshot} (hs : s.Coherent) {key : String} {a : App}
    (h : s.apps[key]? = some a) : a.key = key :=
  congrArg EntityKey.key (hs.keyed ⟨.app, key⟩ (.app a) (by simp [entity?, h]))

theorem Coherent.node_url {s : Snapshot} (hs : s.Coherent) {url : String} {n : Node}
    (h : s.nodes[url]? = some n) : n.url = url :=
  congrArg EntityKey.key (hs.keyed ⟨.node, url⟩ (.node n) (by simp [entity?, h]))

theorem Coherent.config_key {s : Snapshot} (hs : s.Coherent) {key : String} {c : CompiledConfig}
    (h : s.configs[key]? = some c) : c.entry.key = key :=
  congrArg EntityKey.key (hs.keyed ⟨.config, key⟩ (.config c.entry) (by simp [entity?, h]))

section Tables

variable {s t : Snapshot}

theorem users_eq (h : ∀ key, s.entity? ⟨.user, key⟩ = t.entity? ⟨.user, key⟩) :
    s.users = t.users :=
  Std.ExtTreeMap.ext_getElem? fun {key} =>
    Option.map_injective (fun _ _ => Entity.user.inj) (h key)

theorem apps_eq (h : ∀ key, s.entity? ⟨.app, key⟩ = t.entity? ⟨.app, key⟩) : s.apps = t.apps :=
  Std.ExtTreeMap.ext_getElem? fun {key} =>
    Option.map_injective (fun _ _ => Entity.app.inj) (h key)

theorem webhooks_eq (h : ∀ key, s.entity? ⟨.webhook, key⟩ = t.entity? ⟨.webhook, key⟩) :
    s.webhooks = t.webhooks :=
  Std.ExtTreeMap.ext_getElem? fun {key} =>
    Option.map_injective (fun _ _ => Entity.webhook.inj) (h key)

theorem nodes_eq (h : ∀ key, s.entity? ⟨.node, key⟩ = t.entity? ⟨.node, key⟩) :
    s.nodes = t.nodes :=
  Std.ExtTreeMap.ext_getElem? fun {key} =>
    Option.map_injective (fun _ _ => Entity.node.inj) (h key)

theorem Coherent.configs_eq (hs : s.Coherent) (ht : t.Coherent)
    (h : ∀ key, s.entity? ⟨.config, key⟩ = t.entity? ⟨.config, key⟩) : s.configs = t.configs := by
  refine Std.ExtTreeMap.ext_getElem? fun {key} => ?_
  have hkey : (s.configs[key]?.map fun c => Entity.config c.entry) =
      t.configs[key]?.map fun c => Entity.config c.entry := h key
  cases hsc : s.configs[key]? with
  | none => cases htc : t.configs[key]? with
    | none => rfl
    | some d => simp [hsc, htc] at hkey
  | some c => cases htc : t.configs[key]? with
    | none => simp [hsc, htc] at hkey
    | some d =>
        have hentry : c.entry = d.entry := by simpa [hsc, htc] using hkey
        rw [hs.compiled key c hsc, ht.compiled key d htc, hentry]

end Tables

end Snapshot

end RemoteConfig
