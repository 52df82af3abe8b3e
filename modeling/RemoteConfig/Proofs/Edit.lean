import RemoteConfig.Proofs.Acceptance
import RemoteConfig.Proofs.Index
/-! # Edits

Every mutation that a request of an operator, or the claim of a starting master, is turned into is
one of seven edits of the apps and configs, whatever else it does.  All of them are admitted, so on
a master that is written by requests only the indexes stay exact. -/

namespace RemoteConfig

/-- What an accepted request asks for, by its effect on apps and configs. -/
inductive Edit (sign : String) (s : Snapshot) : List Change → Prop
  /-- Nothing about apps and configs. -/
  | peripheral {changes : List Change}
      (h : ∀ c ∈ changes, c.key.kind ≠ .app ∧ c.key.kind ≠ .config) : Edit sign s changes
  | createApp {a : App} (hnew : s.apps[a.key]? = none) (hsign : a.dataSign = sign)
      (hname : ∀ b, s.appByName? a.name = some b → b.key = a.key) : Edit sign s [.upsert (.app a)]
  | renameApp {a a' : App} (ha : s.apps[a'.key]? = some a) (hsign : a'.dataSign = a.dataSign)
      (hname : ∀ b, s.appByName? a'.name = some b → b.key = a'.key) : Edit sign s [.upsert (.app a')]
  | deleteApp {key : String} {hooks : List Change} (hconfigs : s.appConfigs key = [])
      (hreference : s.isTemplateReferenced key = false)
      (hhooks : ∀ c ∈ hooks, c.key.kind = .webhook) : Edit sign s (.delete ⟨.app, key⟩ :: hooks)
  | putConfig {c : Config} {a a' : App} (ha : s.apps[c.appKey]? = some a) (hkey : a'.key = a.key)
      (hname : a'.name = a.name)
      (hbefore : ∀ b, s.configs[c.key]? = some b → b.entry.appKey = c.appKey)
      (htemplate : ∀ key, c.compile.value = .ok (.template key) → (s.apps[key]?).isSome)
      (hsign : a'.dataSign = if c.isActive ∨ ∃ b, s.configs[c.key]? = some b ∧ b.entry.isActive then
        sign else a.dataSign) : Edit sign s [.upsert (.config c), .upsert (.app a')]
  | deleteConfig {key : String} {c : CompiledConfig} {a a' : App} (hc : s.configs[key]? = some c)
      (ha : s.apps[c.entry.appKey]? = some a) (hkey : a'.key = a.key) (hname : a'.name = a.name)
      (hsign : a'.dataSign = if c.entry.isActive then sign else a.dataSign) :
      Edit sign s [.delete ⟨.config, key⟩, .upsert (.app a')]
  | deleteOrphan {key : String} {c : CompiledConfig} (hc : s.configs[key]? = some c)
      (ha : s.apps[c.entry.appKey]? = none) : Edit sign s [.delete ⟨.config, key⟩]

/-! ## Claims and requests are edits -/

/-- A claim is about nodes only. -/
theorem Replica.edit_claim {settings : Settings} {now : Timestamp} {s : Snapshot} {d : Delta}
    (h : claim settings now s = .ok d) (sign : String) : Edit sign s d.changes := by
  refine .peripheral ?_
  cases claimed_of_claim h with
  | holding => exact nofun
  | entering => simp [Delta.upsert, Delta.empty, Change.key, Entity.key]
  | replacing => simp [Delta.upsert, Delta.delete, Delta.empty, Change.key, Entity.key]

namespace Write

variable {sign : String} {s : Snapshot} {d : Delta}

theorem edit_of_single {c : Change} (hkind : c.key.kind ≠ .app ∧ c.key.kind ≠ .config) :
    Edit sign s [c] := by
  refine .peripheral ?_
  intro c' hc'
  rw [List.mem_singleton.mp hc']
  exact hkind

/-- An accepted request is an edit. -/
theorem Accepted.edit {w : Write} {changes : List Change} (h : Accepted sign s w changes)
    (hs : s.Coherent) : Edit sign s changes := by
  cases h with
  | createApp hname hnew => exact .createApp hnew rfl hname
  | @updateApp key name type a hname ha htype =>
      obtain rfl : a.key = key := hs.app_key ha
      exact .renameApp ha rfl hname
  | deleteApp h hconfigs hreference => exact .deleteApp hconfigs hreference kind_unhook
  | @putConfig c a value hvalue ha hbefore hfield htemplate =>
      refine .putConfig ha (key_entered ..) (name_entered ..) hbefore ?_ ?_
      · intro key hkey
        obtain ⟨t, ht, -⟩ := htemplate key (Except.ok.inj (hvalue.symm.trans hkey))
        exact Option.isSome_of_mem ht
      · rw [dataSign_entered]
        cases s.configs[c.key]? <;> simp [or_comm]
  | deleteConfig hc ha =>
      refine .deleteConfig hc ha (key_removed ..) (name_removed ..) ?_
      rw [dataSign_removed]
  | deleteOrphan hc ha => exact .deleteOrphan hc ha
  | putUser => exact edit_of_single ⟨nofun, nofun⟩
  | deleteUser => exact edit_of_single ⟨nofun, nofun⟩
  | putWebhook => exact edit_of_single ⟨nofun, nofun⟩
  | deleteWebhook => exact edit_of_single ⟨nofun, nofun⟩
  | putNode => exact edit_of_single ⟨nofun, nofun⟩
  | deleteNode => exact edit_of_single ⟨nofun, nofun⟩

/-- What carries a request out is an edit. -/
theorem edit_delta (hs : s.Coherent) {w : Write} (h : w.delta sign s = .ok d) :
    Edit sign s d.changes := (accepted_delta h).edit hs

end Write

/-! ## Edits are admitted -/

theorem Holdings.admitsAll_of_no_app : ∀ {changes : List Change} {m : Holdings},
    (∀ c ∈ changes, c.key.kind ≠ .app) → m.AdmitsAll changes
  | [], _, _ => trivial
  | c :: rest, m, h => by
      refine ⟨?_, admitsAll_of_no_app fun c' hc' => h c' (List.mem_cons_of_mem _ hc')⟩
      have hc := h c List.mem_cons_self
      rcases c with e | ⟨kind, key⟩
      · cases e with
        | app a => exact absurd rfl hc
        | _ => exact trivial
      · cases kind with
        | app => exact absurd rfl hc
        | _ => exact trivial

namespace Edit

variable {sign : String} {s : Snapshot} {changes : List Change}

/-- An app can be entered under a name that no other app has. -/
theorem admits_app (hs : s.Coherent) (he : s.Exact) {a : App}
    (hname : ∀ b, s.appByName? a.name = some b → b.key = a.key) :
    s.entity?.Admits (.upsert (.app a)) := by
  intro k b hb hsame
  exact he.eq_key_of_free hs hname (Snapshot.entity?_app_eq_some.mp hb) hsame

/-- An app can be entered under its own name, after a change of a config. -/
theorem admits_app_after (hs : s.Coherent) (he : s.Exact) {c : Change} (hc : c.key.kind = .config)
    {key : String} {a a' : App} (ha : s.apps[key]? = some a) (hkey : a'.key = a.key)
    (hname : a'.name = a.name) : (s.entity?.apply c).Admits (.upsert (.app a')) := by
  intro k b hb hsame
  have hne : (⟨.app, k⟩ : EntityKey) ≠ c.key := fun h => by simp [← h] at hc
  rw [Holdings.apply, Function.update_of_ne hne] at hb
  have hb' := Snapshot.entity?_app_eq_some.mp hb
  rw [he.name_unique hb' ha (hsame.trans hname), hkey, hs.app_key ha]

theorem admitsAll (h : Edit sign s changes) (hs : s.Coherent) (he : s.Exact) :
    s.entity?.AdmitsAll changes := by
  cases h with
  | peripheral h => exact Holdings.admitsAll_of_no_app fun c hc => (h c hc).1
  | createApp hnew hsign hname => exact ⟨admits_app hs he hname, trivial⟩
  | renameApp ha hsign hname => exact ⟨admits_app hs he hname, trivial⟩
  | deleteApp hconfigs hreference hhooks =>
      refine ⟨?_, Holdings.admitsAll_of_no_app fun c hc => ?_⟩
      · intro k c hc happ
        obtain ⟨c', hc', rfl⟩ := Snapshot.entity?_config_eq_some.mp hc
        exact he.ne_appKey_of_appConfigs_eq_nil hconfigs hc' happ
      · rw [hhooks c hc]
        exact nofun
  | putConfig ha hkey hname hbefore htemplate hsign =>
      exact ⟨trivial, admits_app_after hs he rfl ha hkey hname, trivial⟩
  | deleteConfig hc ha hkey hname hsign =>
      exact ⟨trivial, admits_app_after hs he rfl ha hkey hname, trivial⟩
  | deleteOrphan hc ha => exact ⟨trivial, trivial⟩

end Edit

end RemoteConfig
