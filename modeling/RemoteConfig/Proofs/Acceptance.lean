import Mathlib.Tactic.ByContra
import RemoteConfig.Proofs.Outcome
import RemoteConfig.Service.Write
/-! # Accepted requests

Which requests of operators are accepted, and the changes that carry them out; and how a starting
master claims its place.  Both are said once, with all that had to hold, so that whatever a master
keeps can be checked request by request. -/

namespace RemoteConfig

/-! ## The claim of a master -/

namespace Replica

/-- The node as which a master enters itself. -/
def ownNode (settings : Settings) (now : Timestamp) (s : Snapshot) : Node :=
  ⟨settings.url, .master, some now, s.dataVersion.version⟩

/-- How a master claims its place: it has it already, nobody has it, or it removes the one who
has. -/
inductive Claimed (settings : Settings) (now : Timestamp) (s : Snapshot) : Delta → Prop
  | holding {n : Node} (hown : s.node? settings.url = some n) (hrole : n.role = .master)
      (hmaster : ∀ other, s.master? = some other → other.url = settings.url) :
      Claimed settings now s .empty
  | entering (hmaster : ∀ other, s.master? = some other → other.url = settings.url) :
      Claimed settings now s (Delta.empty.upsert (.node (ownNode settings now s)))
  | replacing {other : Node} (hother : s.master? = some other) (hne : other.url ≠ settings.url)
      (hreplaces : settings.replacesMaster = true) :
      Claimed settings now s
        ((Delta.empty.delete ⟨.node, other.url⟩).upsert (.node (ownNode settings now s)))

theorem claimed_of_claim {settings : Settings} {now : Timestamp} {s : Snapshot} {d : Delta}
    (h : claim settings now s = .ok d) : Claimed settings now s d := by
  unfold claim at h
  extract_lets own enter at h
  -- without a removal the row of the node decides whether there is anything to do
  have henter : (∀ other, s.master? = some other → other.url = settings.url) →
      enter .empty = .ok d → Claimed settings now s d := by
    intro hmaster henter
    dsimp only [enter] at henter
    split at henter
    · rename_i n hown
      split at henter
      · rename_i hheld
        cases henter
        exact .holding hown hheld.1 hmaster
      · cases henter
        exact .entering hmaster
    · cases henter
      exact .entering hmaster
  cases hmaster : s.master? with
  | none =>
      rw [hmaster] at h
      exact henter (by simp [hmaster]) h
  | some other =>
      rw [hmaster] at h
      dsimp only at h
      split at h
      · rename_i hurl
        refine henter ?_ h
        intro other' hother'
        obtain rfl := Option.some.inj (hmaster.symm.trans hother')
        exact hurl
      · rename_i hne
        split at h
        · rename_i hreplaces
          have hentered : enter (Delta.empty.delete ⟨.node, other.url⟩) =
              .ok ((Delta.empty.delete ⟨.node, other.url⟩).upsert (.node own)) := by
            dsimp only [enter]
            split
            · exact if_neg fun hheld => by simpa [Delta.isEmpty, Delta.delete] using hheld.2
            · rfl
          obtain rfl := Except.ok.inj (hentered.symm.trans h)
          exact .replacing hmaster hne hreplaces
        · cases h

/-- Another master is not removed unless that was ordered. -/
theorem claim_eq_error {settings : Settings} {now : Timestamp} {s : Snapshot} {other : Node}
    (hother : s.master? = some other) (hne : other.url ≠ settings.url)
    (hreplaces : settings.replacesMaster = false) :
    claim settings now s = .error (.masterConflict other.url) := by
  unfold claim
  simp only [hother, if_neg hne, hreplaces]
  rfl

end Replica

/-! ## The requests of operators -/

namespace Write

theorem refuseIf_eq_ok {condition : Bool} {cause : Invalid} {u : Unit}
    (h : refuseIf condition cause = .ok u) : condition = false := by
  cases condition with
  | true => cases h
  | false => rfl

theorem require_eq_ok {s : Snapshot} {k : EntityKey} {u : Unit} (h : require s k = .ok u) :
    s.contains k = true := by
  unfold require at h
  split at h
  · assumption
  · cases h

/-! ### The row of an app whose configs change -/

/-- The row of an app after a config was entered in the place of another one, if there was one. -/
def entered (sign : String) (a : App) (before : Option Config) (c : Config) : App :=
  let a := updated a
  let a := if before.isNone then { a with keyCount := a.keyCount + 1 } else a
  resigned a (before.any Config.isActive || c.isActive) sign

/-- The row of an app after a config of it was removed. -/
def removed (sign : String) (a : App) (c : Config) : App :=
  resigned { updated a with keyCount := decremented a.keyCount } c.isActive sign

section Rows

variable (sign : String) (a : App) (before : Option Config) (c : Config)

theorem resigned_eq (changes : Bool) : resigned a changes sign =
    { a with dataSign := if changes then sign else a.dataSign } := by
  cases changes <;> rfl

@[simp]
theorem key_entered : (entered sign a before c).key = a.key := by
  cases before <;> simp [entered, resigned_eq, updated]

@[simp]
theorem name_entered : (entered sign a before c).name = a.name := by
  cases before <;> simp [entered, resigned_eq, updated]

@[simp]
theorem type_entered : (entered sign a before c).type = a.type := by
  cases before <;> simp [entered, resigned_eq, updated]

theorem keyCount_entered : (entered sign a before c).keyCount =
    if before.isNone then a.keyCount + 1 else a.keyCount := by
  cases before <;> simp [entered, resigned_eq, updated]

theorem dataSign_entered : (entered sign a before c).dataSign =
    if before.any Config.isActive || c.isActive then sign else a.dataSign := by
  cases before <;> simp [entered, resigned_eq, updated]

@[simp]
theorem key_removed : (removed sign a c).key = a.key := by simp [removed, resigned_eq, updated]

@[simp]
theorem name_removed : (removed sign a c).name = a.name := by simp [removed, resigned_eq, updated]

@[simp]
theorem type_removed : (removed sign a c).type = a.type := by simp [removed, resigned_eq, updated]

theorem keyCount_removed : (removed sign a c).keyCount = decremented a.keyCount := by
  simp [removed, resigned_eq]

theorem dataSign_removed : (removed sign a c).dataSign =
    if c.isActive then sign else a.dataSign := by
  simp [removed, resigned_eq, updated]

end Rows

/-! ### Acceptance -/

/-- No other app has the name. -/
def NameFree (s : Snapshot) (name key : String) : Prop :=
  ∀ b, s.appByName? name = some b → b.key = key

/-- The removal of the web hooks of an app. -/
def unhook (s : Snapshot) (appKey : String) : List Change :=
  (s.webhooks.values.filter (·.appKey = appKey)).map fun w => .delete ⟨.webhook, w.key⟩

theorem kind_unhook {s : Snapshot} {appKey : String} :
    ∀ c ∈ unhook s appKey, c.key.kind = .webhook := by
  intro c hc
  obtain ⟨w, -, rfl⟩ := List.mem_map.mp hc
  rfl

/-- An accepted request, with the changes that carry it out. -/
inductive Accepted (sign : String) (s : Snapshot) : Write → List Change → Prop
  | putUser (u : User) : Accepted sign s (.putUser u) [.upsert (.user u)]
  | deleteUser {name : String} (h : s.contains ⟨.user, name⟩ = true) :
      Accepted sign s (.deleteUser name) [.delete ⟨.user, name⟩]
  | createApp {key name : String} {type : AppType} (hname : NameFree s name key)
      (hnew : s.apps[key]? = none) :
      Accepted sign s (.putApp key name type) [.upsert (.app ⟨key, name, type, sign, 0, 0⟩)]
  | updateApp {key name : String} {type : AppType} {a : App} (hname : NameFree s name key)
      (ha : s.apps[key]? = some a)
      (htype : a.type = .template → type ≠ .template → s.isTemplateReferenced key = false) :
      Accepted sign s (.putApp key name type)
        [.upsert (.app { updated a with name := name, type := type })]
  | deleteApp {key : String} (h : s.contains ⟨.app, key⟩ = true) (hconfigs : s.appConfigs key = [])
      (hreference : s.isTemplateReferenced key = false) :
      Accepted sign s (.deleteApp key) (.delete ⟨.app, key⟩ :: unhook s key)
  | putConfig {c : Config} {a : App} {value : ConfigValue} (hvalue : c.compile.value = .ok value)
      (ha : s.apps[c.appKey]? = some a)
      (hbefore : ∀ b, s.configs[c.key]? = some b → b.entry.appKey = c.appKey)
      (hfield : ∀ other ∈ s.appConfigs c.appKey, other.entry.fieldName = c.fieldName →
        other.entry.key = c.key)
      (htemplate : ∀ key, value = .template key →
        ∃ t, s.apps[key]? = some t ∧ t.type = .template ∧ t.key ≠ c.appKey) :
      Accepted sign s (.putConfig c)
        [.upsert (.config c), .upsert (.app (entered sign a (s.configs[c.key]?.map (·.entry)) c))]
  | deleteConfig {key : String} {c : CompiledConfig} {a : App} (hc : s.configs[key]? = some c)
      (ha : s.apps[c.entry.appKey]? = some a) :
      Accepted sign s (.deleteConfig key)
        [.delete ⟨.config, key⟩, .upsert (.app (removed sign a c.entry))]
  | deleteOrphan {key : String} {c : CompiledConfig} (hc : s.configs[key]? = some c)
      (ha : s.apps[c.entry.appKey]? = none) :
      Accepted sign s (.deleteConfig key) [.delete ⟨.config, key⟩]
  | putWebhook {w : Webhook} (h : s.contains ⟨.app, w.appKey⟩ = true) :
      Accepted sign s (.putWebhook w) [.upsert (.webhook w)]
  | deleteWebhook {key : String} (h : s.contains ⟨.webhook, key⟩ = true) :
      Accepted sign s (.deleteWebhook key) [.delete ⟨.webhook, key⟩]
  | putNode {n : Node}
      (hmaster : ∀ master, s.master? = some master → (master.url = n.url ↔ n.role = .master)) :
      Accepted sign s (.putNode n) [.upsert (.node n)]
  | deleteNode {url : String} (h : s.contains ⟨.node, url⟩ = true) :
      Accepted sign s (.deleteNode url) [.delete ⟨.node, url⟩]

variable {sign : String} {s : Snapshot} {d : Delta}

theorem accepted_putApp {key name : String} {type : AppType}
    (h : putAppDelta sign key name type s = .ok d) :
    Accepted sign s (.putApp key name type) d.changes := by
  obtain ⟨_, htaken, h⟩ := bind_eq_ok h
  have hname : NameFree s name key := by
    intro b hb
    have hfree := refuseIf_eq_ok htaken
    rw [hb] at hfree
    simpa using hfree
  cases ha : s.app? key with
  | none =>
      rw [ha] at h
      cases h
      exact .createApp hname ha
  | some a =>
      rw [ha] at h
      obtain ⟨_, hreference, h⟩ := bind_eq_ok h
      cases h
      refine .updateApp hname ha ?_
      intro htemplate hreal
      simpa [htemplate, hreal] using refuseIf_eq_ok hreference

theorem changes_foldl_delete (hooks : List Webhook) (d : Delta) :
    (hooks.foldl (fun d w => d.delete ⟨.webhook, w.key⟩) d).changes =
      d.changes ++ hooks.map fun w => .delete ⟨.webhook, w.key⟩ := by
  induction hooks generalizing d with
  | nil => simp
  | cons w rest ih =>
      rw [List.foldl_cons, ih]
      simp [Delta.delete]

theorem accepted_deleteApp {key : String} (h : deleteAppDelta key s = .ok d) :
    Accepted sign s (.deleteApp key) d.changes := by
  obtain ⟨_, hthere, h⟩ := bind_eq_ok h
  obtain ⟨_, hconfigs, h⟩ := bind_eq_ok h
  obtain ⟨_, hreference, h⟩ := bind_eq_ok h
  cases h
  rw [changes_foldl_delete]
  refine .deleteApp (require_eq_ok hthere) ?_ (refuseIf_eq_ok hreference)
  simpa using refuseIf_eq_ok hconfigs

/-- A value that inlines an app passes the check only if that is another app, and a template. -/
theorem exists_template_of_check {appKey key : String} {u : Unit}
    (h : checkTemplate s appKey (.template key) = .ok u) :
    ∃ t, s.apps[key]? = some t ∧ t.type = .template ∧ t.key ≠ appKey := by
  have hany := refuseIf_eq_ok h
  rw [Bool.not_eq_false', Option.any_eq_true] at hany
  obtain ⟨t, ht, htemplate⟩ := hany
  exact ⟨t, ht, by simpa using htemplate⟩

/-- What is checked once it is known which config is replaced, if one is. -/
theorem accepted_putConfig_of_before {c : Config} {a : App} {value : ConfigValue}
    (hvalue : c.compile.value = .ok value) (ha : s.apps[c.appKey]? = some a)
    {before : Option Config} (hb : before = s.configs[c.key]?.map (·.entry))
    (hbefore : ∀ b, s.configs[c.key]? = some b → b.entry.appKey = c.appKey)
    (h : (do
      refuseIf ((s.appConfigs c.appKey).any fun other =>
        other.entry.key ≠ c.key && other.entry.fieldName = c.fieldName)
        (.fieldExists c.fieldName c.appKey)
      checkTemplate s c.appKey value
      return (Delta.empty.upsert (.config c)).upsert (.app (entered sign a before c)) :
        Except Error Delta) = .ok d) : Accepted sign s (.putConfig c) d.changes := by
  subst hb
  obtain ⟨_, hfield, h⟩ := bind_eq_ok h
  obtain ⟨_, hcheck, h⟩ := bind_eq_ok h
  cases h
  refine .putConfig hvalue ha hbefore ?_ ?_
  · intro other hother hsame
    by_contra hne
    have hnone := List.any_eq_false.mp (refuseIf_eq_ok hfield) other hother
    exact hnone (by simp [hne, hsame])
  · rintro key rfl
    exact exists_template_of_check hcheck

theorem accepted_putConfig {c : Config} (h : putConfigDelta sign c s = .ok d) :
    Accepted sign s (.putConfig c) d.changes := by
  obtain ⟨value, hvalue, h⟩ := bind_eq_ok h
  cases ha : s.app? c.appKey with
  | none =>
      rw [ha] at h
      cases h
  | some a =>
      rw [ha] at h
      cases hb : s.config? c.key with
      | none =>
          have hnone : s.configs[c.key]? = none := hb
          rw [hb] at h
          obtain ⟨_, -, h⟩ := bind_eq_ok h
          exact accepted_putConfig_of_before hvalue ha (by rw [hnone]) (by simp [hnone]) h
      | some b =>
          have hsome : s.configs[c.key]? = some b := hb
          rw [hb] at h
          obtain ⟨_, hown, h⟩ := bind_eq_ok h
          refine accepted_putConfig_of_before hvalue ha (by rw [hsome]) ?_ h
          intro b' hb'
          obtain rfl := Option.some.inj (hsome.symm.trans hb')
          simpa using refuseIf_eq_ok hown

theorem accepted_deleteConfig {key : String} (h : deleteConfigDelta sign key s = .ok d) :
    Accepted sign s (.deleteConfig key) d.changes := by
  unfold deleteConfigDelta at h
  cases hc : s.config? key with
  | none =>
      rw [hc] at h
      cases h
  | some c =>
      rw [hc] at h
      cases ha : s.app? c.entry.appKey with
      | none =>
          simp only [ha] at h
          cases h
          exact .deleteOrphan hc ha
      | some a =>
          simp only [ha] at h
          cases h
          exact .deleteConfig hc ha

theorem accepted_putNode {n : Node} (h : putNodeDelta n s = .ok d) :
    Accepted sign s (.putNode n) d.changes := by
  unfold putNodeDelta at h
  cases hmaster : s.master? with
  | none =>
      rw [hmaster] at h
      cases h
      exact .putNode (by simp [hmaster])
  | some master =>
      rw [hmaster] at h
      obtain ⟨_, hdemotion, h⟩ := bind_eq_ok h
      split at h
      · obtain ⟨_, hconflict, h⟩ := bind_eq_ok h
        cases hconflict
      · rename_i hsecond
        cases h
        refine .putNode ?_
        intro master' hmaster'
        obtain rfl := Option.some.inj (hmaster.symm.trans hmaster')
        have hkept : master.url = n.url → n.role = .master := by
          simpa using refuseIf_eq_ok hdemotion
        refine ⟨hkept, ?_⟩
        intro hrole
        by_contra hne
        exact hsecond ⟨hne, hrole⟩

/-- What is required to be there, is. -/
theorem accepted_of_require {w : Write} {k : EntityKey} {c : Change}
    (h : (do require s k; return ⟨[c]⟩ : Except Error Delta) = .ok d)
    (haccepted : s.contains k = true → Accepted sign s w [c]) : Accepted sign s w d.changes := by
  obtain ⟨_, hthere, h⟩ := bind_eq_ok h
  cases h
  exact haccepted (require_eq_ok hthere)

/-- The step lemma of requests. -/
theorem accepted_delta {w : Write} (h : w.delta sign s = .ok d) : Accepted sign s w d.changes := by
  cases w with
  | putUser u => cases h; exact .putUser u
  | deleteUser name => exact accepted_of_require h .deleteUser
  | putApp key name type => exact accepted_putApp h
  | deleteApp key => exact accepted_deleteApp h
  | putConfig c => exact accepted_putConfig h
  | deleteConfig key => exact accepted_deleteConfig h
  | putWebhook w => exact accepted_of_require h .putWebhook
  | deleteWebhook key => exact accepted_of_require h .deleteWebhook
  | putNode n => exact accepted_putNode h
  | deleteNode url => exact accepted_of_require h .deleteNode

end Write

end RemoteConfig
