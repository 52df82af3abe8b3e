import RemoteConfig.Proofs.Holdings
import RemoteConfig.Replica
/-! # Dumps and holdings

The dump of a coherent snapshot lists its holdings, each entity once, so what is built from the dump
has the same holdings.  What nodes note about their own progress is left out of the comparison of
replicas: a replica that stamps its own row moves nothing else. -/

namespace RemoteConfig

/-! ## Progress -/

def Node.withoutProgress (n : Node) : Node := { n with lastCheck := none, dataVersion := 0 }

namespace Entity

/-- An entity without what a node notes about its own progress. -/
def withoutProgress : Entity → Entity
  | node n => .node n.withoutProgress
  | e => e

@[simp]
theorem key_withoutProgress (e : Entity) : e.withoutProgress.key = e.key := by
  cases e <;> rfl

/-- The entity as a replica at `url` takes it from a dump of the given version. -/
def adopt (url : String) (now : Timestamp) (version : Int) : Entity → Entity
  | node n =>
    .node (if n.url = url then { n with dataVersion := version, lastCheck := some now } else n)
  | e => e

variable {url : String} {now : Timestamp} {version : Int}

@[simp]
theorem key_adopt (e : Entity) : (e.adopt url now version).key = e.key := by
  cases e with
  | node n => by_cases h : n.url = url <;> simp [adopt, key, h]
  | _ => rfl

@[simp]
theorem withoutProgress_adopt (e : Entity) :
    (e.adopt url now version).withoutProgress = e.withoutProgress := by
  cases e with
  | node n => by_cases h : n.url = url <;> simp [adopt, withoutProgress, Node.withoutProgress, h]
  | _ => rfl

end Entity

def Change.withoutProgress : Change → Change
  | upsert e => .upsert e.withoutProgress
  | delete k => .delete k

namespace Holdings

def withoutProgress (m : Holdings) : Holdings := fun k => (m k).map Entity.withoutProgress

theorem withoutProgress_apply (m : Holdings) (c : Change) :
    (m.apply c).withoutProgress = m.withoutProgress.apply c.withoutProgress := by
  funext k
  cases c <;>
    simp [withoutProgress, apply, Change.withoutProgress, Change.key, Change.outcome,
      Function.update_apply] <;> split <;> rfl

theorem withoutProgress_applyAll (changes : List Change) : ∀ m : Holdings,
    (m.applyAll changes).withoutProgress =
      m.withoutProgress.applyAll (changes.map Change.withoutProgress) := by
  induction changes with
  | nil => exact fun _ => rfl
  | cons c rest ih =>
      intro m
      rw [applyAll_cons, ih, withoutProgress_apply]
      rfl

/-- Holdings that agree keep agreeing under the same changes. -/
theorem withoutProgress_applyAll_congr {m m' : Holdings} (changes : List Change)
    (h : m.withoutProgress = m'.withoutProgress) :
    (m.applyAll changes).withoutProgress = (m'.applyAll changes).withoutProgress := by
  rw [withoutProgress_applyAll, h, withoutProgress_applyAll]

end Holdings

/-! ## The own row of a replica -/

namespace Replica

theorem withoutProgress_stampOwn (url : String) (version : Int) (c : Change) :
    (stampOwn url version c).withoutProgress = c.withoutProgress := by
  rcases c with e | k
  · cases e with
    | node n =>
        by_cases h : n.url = url <;>
          simp [stampOwn, Change.withoutProgress, Entity.withoutProgress, Node.withoutProgress, h]
    | _ => rfl
  · rfl

/-- That the own row follows the version makes no difference beside progress. -/
theorem withoutProgress_touchOwn {s : Snapshot} (hs : s.Coherent) (url : String) (d : Delta)
    (next : DataVersion) :
    (s.entity?.applyAll (touchOwn url s d next).changes).withoutProgress =
      (s.entity?.applyAll d.changes).withoutProgress := by
  unfold touchOwn
  split
  · have hmap : (d.changes.map (stampOwn url next.version)).map Change.withoutProgress =
        d.changes.map Change.withoutProgress := by
      rw [List.map_map]
      exact List.map_congr_left fun c _ => withoutProgress_stampOwn url next.version c
    rw [Holdings.withoutProgress_applyAll, Holdings.withoutProgress_applyAll, hmap]
  · rename_i huntouched
    split
    · rename_i n hn
      -- no change of the mutation is about the own row, so it still is as it was
      have hown : s.entity? ⟨.node, url⟩ = some (.node n) := by
        simpa [Snapshot.entity?, Snapshot.node?] using hn
      have hurl : n.url = url := congrArg EntityKey.key (hs.keyed _ _ hown)
      have hkeep : s.entity?.applyAll d.changes ⟨.node, url⟩ = some (.node n) := by
        rw [Holdings.applyAll_of_not_mem, hown]
        intro c hc hkey
        exact huntouched (List.any_eq_true.mpr ⟨c, hc, by simpa [concerns] using hkey⟩)
      rw [Delta.upsert, Holdings.applyAll_append]
      show (Holdings.apply _ _).withoutProgress = _
      rw [Holdings.withoutProgress_apply]
      refine Function.update_eq_self_iff.mpr ?_
      subst hurl
      show _ = (s.entity?.applyAll d.changes ⟨.node, n.url⟩).map Entity.withoutProgress
      rw [hkeep]
      rfl
    · rfl

end Replica

/-! ## Dumps -/

namespace Snapshot

variable {s t : Snapshot}

/-- Snapshots with the same holdings at the same version have the same dump. -/
theorem dump_eq (hs : s.Coherent) (ht : t.Coherent) (h : s.entity? = t.entity?)
    (hv : s.dataVersion = t.dataVersion) : s.dump = t.dump := by
  have hk := fun k => congrFun h k
  simp only [dump, hv, users_eq fun _ => hk _, apps_eq fun _ => hk _,
    hs.configs_eq ht fun _ => hk _, webhooks_eq fun _ => hk _, nodes_eq fun _ => hk _]

/-- Holdings that agree beside progress agree on everything but nodes. -/
theorem entity?_eq_of_withoutProgress (h : s.entity?.withoutProgress = t.entity?.withoutProgress)
    {k : EntityKey} (hk : k.kind ≠ .node) : s.entity? k = t.entity? k := by
  have hother : ∀ u : Snapshot, u.entity?.withoutProgress k = u.entity? k := by
    intro u
    obtain ⟨kind, key⟩ := k
    cases kind with
    | node => exact absurd rfl hk
    | _ => simp [Holdings.withoutProgress, entity?, Function.comp_def, Entity.withoutProgress]
  rw [← hother s, ← hother t, h]

/-- Progress is noted in the rows of nodes, so apps and configs are the same. -/
theorem Coherent.tables_eq (hs : s.Coherent) (ht : t.Coherent)
    (h : s.entity?.withoutProgress = t.entity?.withoutProgress) :
    s.apps = t.apps ∧ s.configs = t.configs := by
  have hk := fun {k : EntityKey} => entity?_eq_of_withoutProgress h (k := k)
  constructor
  · exact apps_eq fun _ => hk nofun
  · exact hs.configs_eq ht fun _ => hk nofun

/-- That the own row follows the version does not touch the tables of apps and configs. -/
theorem tables_advance_touchOwn (hs : s.Coherent) (url : String) (d : Delta) (next : DataVersion) :
    (s.advance (Replica.touchOwn url s d next) next).apps = (s.applyAll d.changes).apps ∧
      (s.advance (Replica.touchOwn url s d next) next).configs =
        (s.applyAll d.changes).configs := by
  refine (hs.advance (Replica.touchOwn url s d next) next).tables_eq (hs.applyAll d.changes) ?_
  rw [entity?_advance, Replica.withoutProgress_touchOwn hs, entity?_applyAll]

/-- The nodes agree in addresses and roles. -/
theorem nodes_eq_of_withoutProgress (h : s.entity?.withoutProgress = t.entity?.withoutProgress)
    (url : String) :
    s.nodes[url]?.map Node.withoutProgress = t.nodes[url]?.map Node.withoutProgress := by
  have hurl := congrFun h ⟨.node, url⟩
  simp only [Holdings.withoutProgress, entity?, Option.map_map] at hurl
  refine Option.map_injective (fun _ _ => Entity.node.inj) ?_
  rw [Option.map_map, Option.map_map]
  exact hurl

/-- Replicas that agree have the same dump, apart from the progress of nodes. -/
theorem dump_withoutProgress_eq (hs : s.Coherent) (ht : t.Coherent)
    (h : s.entity?.withoutProgress = t.entity?.withoutProgress)
    (hv : s.dataVersion = t.dataVersion) : s.dump.withoutProgress = t.dump.withoutProgress := by
  have hk := fun {k : EntityKey} => entity?_eq_of_withoutProgress h (k := k)
  have hnodes : s.nodes.values.map Node.withoutProgress = t.nodes.values.map Node.withoutProgress :=
    Table.map_values_congr (nodes_eq_of_withoutProgress h)
  have hleft : ∀ u : Snapshot, u.dump.withoutProgress =
      { u.dump with nodes := u.nodes.values.map Node.withoutProgress } := fun _ => rfl
  rw [hleft, hleft, hnodes]
  simp only [dump, hv, users_eq fun _ => hk nofun, apps_eq fun _ => hk nofun,
    hs.configs_eq ht fun _ => hk nofun, webhooks_eq fun _ => hk nofun]

open Table in
theorem mem_entities_dump (hs : s.Coherent) {e : Entity} :
    e ∈ s.dump.entities ↔ s.entity? e.key = some e := by
  have hkeys : e ∈ s.dump.entities ↔ ∃ k, s.entity? k = some e := by
    simp only [Dump.entities, dump, List.mem_append, List.mem_map, mem_values, entity?]
    constructor
    · rintro ((((⟨u, ⟨k, h⟩, rfl⟩ | ⟨a, ⟨k, h⟩, rfl⟩) | ⟨c, ⟨c', ⟨k, h⟩, rfl⟩, rfl⟩) |
        ⟨w, ⟨k, h⟩, rfl⟩) | ⟨n, ⟨k, h⟩, rfl⟩)
      · exact ⟨⟨.user, k⟩, by simp [h]⟩
      · exact ⟨⟨.app, k⟩, by simp [h]⟩
      · exact ⟨⟨.config, k⟩, by simp [h]⟩
      · exact ⟨⟨.webhook, k⟩, by simp [h]⟩
      · exact ⟨⟨.node, k⟩, by simp [h]⟩
    · rintro ⟨⟨kind, k⟩, h⟩
      cases kind <;> simp only [Option.map_eq_some_iff] at h <;> obtain ⟨x, hx, rfl⟩ := h
      · exact .inl (.inl (.inl (.inl ⟨x, ⟨k, hx⟩, rfl⟩)))
      · exact .inl (.inl (.inl (.inr ⟨x, ⟨k, hx⟩, rfl⟩)))
      · exact .inl (.inl (.inr ⟨x.entry, ⟨x, ⟨k, hx⟩, rfl⟩, rfl⟩))
      · exact .inl (.inr ⟨x, ⟨k, hx⟩, rfl⟩)
      · exact .inr ⟨x, ⟨k, hx⟩, rfl⟩
  rw [hkeys]
  constructor
  · rintro ⟨k, h⟩
    rw [hs.keyed k e h]
    exact h
  · exact fun h => ⟨e.key, h⟩

/-! ## Building from entities -/

theorem entity?_ofEntities (v : DataVersion) (entities : List Entity) :
    (ofEntities v entities).entity? = Holdings.empty.applyAll (entities.map .upsert) := by
  rw [ofEntities, entity?_applyAll, entity?_dataVersion, entity?_empty]

theorem dataVersion_ofEntities (v : DataVersion) (entities : List Entity) :
    (ofEntities v entities).dataVersion = v := dataVersion_applyAll _ _

theorem dataVersion_ofDump (d : Dump) : (ofDump d).dataVersion = d.dataVersion :=
  dataVersion_ofEntities _ _

/-- A list of exactly the entities of some holdings leads back to these holdings. -/
theorem entity?_ofEntities_eq {v : DataVersion} {entities : List Entity} {m : Holdings}
    (hm : ∀ k e, m k = some e → e.key = k) (h : ∀ e, e ∈ entities ↔ m e.key = some e) :
    (ofEntities v entities).entity? = m := by
  rw [entity?_ofEntities]
  funext k
  cases hk : m k with
  | none =>
      rw [Holdings.applyAll_of_not_mem]
      · rfl
      · intro c hc hkey
        obtain ⟨e, he, rfl⟩ := List.mem_map.mp hc
        have hsome : m k = some e := by rw [← hkey]; exact (h e).mp he
        rw [hk] at hsome
        cases hsome
  | some e =>
      have hkey := hm k e hk
      subst hkey
      refine Holdings.applyAll_upserts ((h e).mpr hk) ?_
      intro e' he' hsame
      have hsome := (h e').mp he'
      rw [hsame, hk] at hsome
      exact (Option.some.inj hsome).symm

/-- What a replica finds in a dump that it takes over. -/
theorem mem_entities_adoptOwn (hs : s.Coherent) (url : String) (now : Timestamp) {e : Entity} :
    e ∈ (Replica.adoptOwn url now s.dump).entities ↔
      (s.entity? e.key).map (Entity.adopt url now s.dataVersion.version) = some e := by
  have hentities : (Replica.adoptOwn url now s.dump).entities =
      s.dump.entities.map (Entity.adopt url now s.dataVersion.version) := by
    simp only [Replica.adoptOwn, Dump.entities, List.map_append, List.map_map]
    rfl
  rw [hentities, List.mem_map]
  constructor
  · rintro ⟨e', he', rfl⟩
    rw [Entity.key_adopt, (mem_entities_dump hs).mp he']
    rfl
  · intro h
    obtain ⟨e', he', rfl⟩ := Option.map_eq_some_iff.mp h
    rw [Entity.key_adopt] at he'
    exact ⟨e', (mem_entities_dump hs).mpr he', rfl⟩

theorem entity?_ofDump_adoptOwn (hs : s.Coherent) (url : String) (now : Timestamp) :
    (ofDump (Replica.adoptOwn url now s.dump)).entity? =
      fun k => (s.entity? k).map (Entity.adopt url now s.dataVersion.version) := by
  refine entity?_ofEntities_eq ?_ fun e => mem_entities_adoptOwn hs url now
  intro k e h
  obtain ⟨e', he', rfl⟩ := Option.map_eq_some_iff.mp h
  exact (Entity.key_adopt e').trans (hs.keyed k e' he')

/-- A replica that takes a dump over has the holdings of the dump, beside its own progress. -/
theorem withoutProgress_ofDump_adoptOwn (hs : s.Coherent) (url : String) (now : Timestamp) :
    (ofDump (Replica.adoptOwn url now s.dump)).entity?.withoutProgress =
      s.entity?.withoutProgress := by
  rw [entity?_ofDump_adoptOwn hs]
  funext k
  simp [Holdings.withoutProgress, Function.comp_def]

/-- The changes towards a dump lead to the holdings of the dump, whatever it lists. -/
theorem applyAll_changesTo (hs : s.Coherent) (d : Dump) :
    s.entity?.applyAll (Replica.changesTo s d) = (ofDump d).entity? := by
  have hdump : (ofDump d).entity? = Holdings.empty.applyAll (d.entities.map .upsert) :=
    entity?_ofEntities _ _
  rw [Replica.changesTo, Holdings.applyAll_append]
  funext k
  rw [hdump]
  refine Holdings.applyAll_congr ?_
  by_cases hin : ∃ e ∈ d.entities, e.key = k
  · -- a key that the dump lists is entered last, so what was there does not matter
    obtain ⟨e, he, hkey⟩ := hin
    exact Or.inr ⟨.upsert e, List.mem_map_of_mem he, hkey⟩
  left
  -- the dump lacks the key, so whatever was there is deleted
  have htarget : (ofDump d).contains k = false := by
    rw [contains_eq_isSome, hdump, Holdings.applyAll_of_not_mem]
    · rfl
    · intro c hc hkey
      obtain ⟨e, he, rfl⟩ := List.mem_map.mp hc
      exact hin ⟨e, he, hkey⟩
  cases hk : s.entity? k with
  | none =>
      exact (Holdings.applyAll_congr (Or.inl hk)).trans (Holdings.empty_applyAll_deletes _ _)
  | some e =>
      have hkey := hs.keyed k e hk
      subst hkey
      have hmem : e.key ∈ (s.dump.entities.map Entity.key).filter fun k' => !(ofDump d).contains k' :=
        List.mem_filter.mpr ⟨List.mem_map_of_mem ((mem_entities_dump hs).mpr hk), by simp [htarget]⟩
      exact (Holdings.applyAll_congr (Or.inr ⟨.delete e.key, List.mem_map_of_mem hmem, rfl⟩)).trans
        (Holdings.empty_applyAll_deletes _ _)

end Snapshot

end RemoteConfig
