import RemoteConfig.Proofs.Dump
/-! # Rows and holdings

The rows of a storage hold holdings and a data version, as a snapshot does.  A storage *mirrors* a
snapshot if both hold the same.  Then the transaction of a mutation never meets a row that should
not be there, nor misses one that should: it fails only if the commit was told to fail, and what it
leaves mirrors the next snapshot. -/

namespace RemoteConfig

open Table

namespace Entity

theorem kind_key (e : Entity) : e.key.kind = e.kind := by cases e <;> rfl

end Entity

namespace RecordKey

theorem ofEntity_injective {k k' : EntityKey} (h : ofEntity k = ofEntity k') : k = k' := by
  obtain ⟨kind, key⟩ := k
  obtain ⟨kind', key'⟩ := k'
  simpa [ofEntity] using h

theorem ofEntity_ne_dataVersion (k : EntityKey) : ofEntity k ≠ dataVersion :=
  fun h => nomatch congrArg RecordKey.kind h

end RecordKey

namespace Rows

/-- Every row is under its own key. -/
def WellKeyed (rows : Rows) : Prop := ∀ (key : RecordKey) r, rows[key]? = some r → r.uniqueKey = key

/-- The holdings that rows hold. -/
def entity? (rows : Rows) : Holdings := fun k =>
  match rows[RecordKey.ofEntity k]? with
  | some (.entity e) => some e
  | _ => none

theorem wellKeyed_empty : WellKeyed ∅ := by simp [WellKeyed]

theorem wellKeyed_insert {rows : Rows} (h : WellKeyed rows) (r : Record) :
    WellKeyed (rows.insert r.uniqueKey r) := by
  intro key r' hr
  rw [getElem?_insert_ite] at hr
  split at hr
  · cases hr
    exact Eq.symm ‹_›
  · exact h key r' hr

theorem wellKeyed_erase {rows : Rows} (h : WellKeyed rows) (key : RecordKey) :
    WellKeyed (rows.erase key) := by
  intro key' r hr
  rw [getElem?_erase_ite] at hr
  split at hr
  · cases hr
  · exact h key' r hr

/-- The row of an entity holds that entity. -/
theorem getElem?_ofEntity {rows : Rows} (h : WellKeyed rows) (k : EntityKey) :
    rows[RecordKey.ofEntity k]? = (entity? rows k).map .entity := by
  unfold entity?
  split
  · rename_i e he
    exact he
  · rename_i hno
    cases hr : rows[RecordKey.ofEntity k]? with
    | none => rfl
    | some r =>
        have hkey := h _ r hr
        cases r with
        | entity e => exact absurd hr (hno e)
        | dataVersion v => exact absurd hkey.symm (RecordKey.ofEntity_ne_dataVersion k)
        | clientAttribute a => exact nomatch congrArg RecordKey.kind hkey

theorem entity?_eq_some {rows : Rows} {k : EntityKey} {e : Entity} :
    entity? rows k = some e ↔ rows[RecordKey.ofEntity k]? = some (.entity e) := by
  unfold entity?
  split
  · rename_i e' he
    simp [he]
  · rename_i hno
    exact ⟨nofun, fun h => absurd h (hno e)⟩

theorem mem_iff_isSome {rows : Rows} (h : WellKeyed rows) (k : EntityKey) :
    RecordKey.ofEntity k ∈ rows ↔ (entity? rows k).isSome := by
  rw [Std.ExtTreeMap.mem_iff_isSome_getElem?, getElem?_ofEntity h, Option.isSome_map]

theorem keyed {rows : Rows} (h : WellKeyed rows) (k : EntityKey) (e : Entity)
    (he : entity? rows k = some e) : e.key = k :=
  RecordKey.ofEntity_injective (h _ _ (entity?_eq_some.mp he))

theorem entity?_insert_entity (rows : Rows) (e : Entity) :
    entity? (rows.insert (.ofEntity e.key) (.entity e)) =
      Function.update (entity? rows) e.key (some e) := by
  funext k
  by_cases hk : k = e.key
  · subst hk
    simp [entity?]
  · have hne : RecordKey.ofEntity k ≠ .ofEntity e.key := fun h => hk (RecordKey.ofEntity_injective h)
    simp only [entity?, getElem?_insert_ite, if_neg hne, Function.update_of_ne hk]

theorem entity?_erase_ofEntity (rows : Rows) (k : EntityKey) :
    entity? (rows.erase (.ofEntity k)) = Function.update (entity? rows) k none := by
  funext k'
  by_cases hk : k' = k
  · subst hk
    simp [entity?]
  · have hne : RecordKey.ofEntity k' ≠ .ofEntity k := fun h => hk (RecordKey.ofEntity_injective h)
    simp only [entity?, getElem?_erase_ite, if_neg hne, Function.update_of_ne hk]

/-- Rows of other kinds do not count. -/
theorem entity?_congr {rows rows' : Rows}
    (h : ∀ k, rows'[RecordKey.ofEntity k]? = rows[RecordKey.ofEntity k]?) :
    entity? rows' = entity? rows := by
  funext k
  rw [entity?, entity?, h]

end Rows

/-! ## Staged changes -/

namespace Replica

/-- Staged changes never fail if the keys that are present are known, and they do to the rows what
they do to holdings. -/
theorem runAll_stage : ∀ (changes : List Change) {rows : Rows} {present : EntityKey → Bool},
    Rows.WellKeyed rows → (∀ k, present k = (Rows.entity? rows k).isSome) →
      ∃ rows', (∀ rest, Operation.runAll rows (stage present changes ++ rest) =
          Operation.runAll rows' rest) ∧
        Rows.WellKeyed rows' ∧ Rows.entity? rows' = (Rows.entity? rows).applyAll changes ∧
        ∀ key : RecordKey, (∀ k, key ≠ .ofEntity k) → rows'[key]? = rows[key]?
  | [], rows, present, hk, _ => ⟨rows, fun _ => rfl, hk, rfl, fun _ _ => rfl⟩
  -- what carries the induction is that `present` tells which rows are there, after every change
  | .upsert e :: rest, rows, present, hk, hp => by
      let rows₁ := rows.insert (.ofEntity e.key) (.entity e)
      have hk₁ : Rows.WellKeyed rows₁ := Rows.wellKeyed_insert hk (.entity e)
      have he₁ : Rows.entity? rows₁ = (Rows.entity? rows).apply (.upsert e) :=
        Rows.entity?_insert_entity rows e
      have hp₁ : ∀ k, (k = e.key || present k) = (Rows.entity? rows₁ k).isSome := by
        intro k
        rw [he₁, Holdings.apply, Function.update_apply]
        by_cases h : k = e.key <;> simp [Change.key, Change.outcome, h, hp]
      obtain ⟨rows', hrun, hk', he', hother⟩ := runAll_stage rest hk₁ hp₁
      refine ⟨rows', ?_, hk', by rw [he', he₁]; rfl, ?_⟩
      · -- the row is there exactly if its key is present, so the right operation was chosen
        intro more
        have hmem : RecordKey.ofEntity e.key ∈ rows ↔ present e.key = true := by
          rw [hp]
          exact Rows.mem_iff_isSome hk e.key
        rw [← hrun more]
        by_cases h : present e.key = true
        · simp [stage, h, Operation.runAll, Operation.run, hmem.mpr h, bind, Except.bind, rows₁]
        · have hnot : RecordKey.ofEntity e.key ∉ rows := fun hin => h (hmem.mp hin)
          simp [stage, h, Operation.runAll, Operation.run, Record.uniqueKey, hnot, bind, Except.bind,
            rows₁]
      · intro key hkey
        rw [hother key hkey, getElem?_insert_ite, if_neg (hkey e.key)]
  | .delete k :: rest, rows, present, hk, hp => by
      let rows₁ := rows.erase (.ofEntity k)
      have hk₁ : Rows.WellKeyed rows₁ := Rows.wellKeyed_erase hk _
      have he₁ : Rows.entity? rows₁ = (Rows.entity? rows).apply (.delete k) :=
        Rows.entity?_erase_ofEntity rows k
      have hp₁ : ∀ k', (k' ≠ k && present k') = (Rows.entity? rows₁ k').isSome := by
        intro k'
        rw [he₁, Holdings.apply, Function.update_apply]
        by_cases h : k' = k <;> simp [Change.key, Change.outcome, h, hp]
      obtain ⟨rows', hrun, hk', he', hother⟩ := runAll_stage rest hk₁ hp₁
      refine ⟨rows', fun more => hrun more, hk', by rw [he', he₁]; rfl, ?_⟩
      intro key hkey
      rw [hother key hkey, getElem?_erase_ite, if_neg (hkey k)]

end Replica

/-! ## Reading rows -/

namespace Storage

/-- Two storages that differ at most in attribute values and in what was ordered for the next
commit. -/
def SameData (s s' : Storage) : Prop :=
  ∀ key : RecordKey, key.kind ≠ .clientAttribute → s'.rows[key]? = s.rows[key]?

theorem SameData.refl (s : Storage) : s.SameData s := fun _ _ => rfl

theorem SameData.symm {s s' : Storage} (h : s.SameData s') : s'.SameData s :=
  fun key hkey => (h key hkey).symm

theorem SameData.trans {s s' s'' : Storage} (h : s.SameData s') (h' : s'.SameData s'') :
    s.SameData s'' := fun key hkey => (h' key hkey).trans (h key hkey)

theorem mem_findAll {s : Storage} {kind : RecordKind} {r : Record} :
    r ∈ s.findAll kind ↔ ∃ key : RecordKey, s.rows[key]? = some r ∧ key.kind = kind := by
  simp only [findAll, List.mem_map, List.mem_filter, decide_eq_true_eq]
  constructor
  · rintro ⟨⟨key, r⟩, ⟨h, hkind⟩, rfl⟩
    exact ⟨key, Std.ExtTreeMap.mem_toList_iff_getElem?_eq_some.mp h, hkind⟩
  · rintro ⟨key, h, hkind⟩
    exact ⟨(key, r), ⟨Std.ExtTreeMap.mem_toList_iff_getElem?_eq_some.mpr h, hkind⟩, rfl⟩

theorem findAll_congr {s s' : Storage} {kind : RecordKind}
    (h : ∀ key : RecordKey, key.kind = kind → s'.rows[key]? = s.rows[key]?) :
    s'.findAll kind = s.findAll kind := by
  have hlist : ∀ u : Storage, u.findAll kind = u.rows.toList.filterMap fun row =>
      if row.1.kind = kind then some row.2 else none := by
    intro u
    rw [findAll, ← List.filterMap_eq_map, List.filterMap_filter]
    simp only [decide_eq_true_eq, Function.comp_apply]
  rw [hlist, hlist]
  refine filterMap_toList_congr
    (f := fun key : RecordKey => fun r => if key.kind = kind then some r else none) ?_
  intro key
  by_cases hkey : key.kind = kind
  · rw [h key hkey]
  · simp [hkey]

/-- Attribute values get in the way of no rows of another kind. -/
theorem SameData.findAll_eq {s s' : Storage} (h : s.SameData s') (kind : RecordKind)
    (hkind : kind ≠ .clientAttribute) : s'.findAll kind = s.findAll kind :=
  findAll_congr fun key hkey => h key (hkey ▸ hkind)

theorem SameData.dataVersion?_eq {s s' : Storage} (h : s.SameData s') :
    s'.dataVersion? = s.dataVersion? := by
  rw [dataVersion?, dataVersion?, h.findAll_eq .dataVersion nofun]

/-- Attribute values do not show in what is loaded. -/
theorem SameData.load_eq {s s' : Storage} (h : s.SameData s') : s'.load = s.load := by
  have hentities : s'.entities = s.entities := by
    simp only [entities, fun kind => h.findAll_eq (.entity kind) nofun]
  rw [load, h.dataVersion?_eq, hentities]
  rfl

section WellKeyed

variable {s : Storage} (h : s.rows.WellKeyed)
include h

theorem mem_entities {e : Entity} : e ∈ s.entities ↔ s.rows.entity? e.key = some e := by
  simp only [entities, List.mem_flatMap, List.mem_filterMap, mem_findAll]
  rw [Rows.entity?_eq_some]
  constructor
  · rintro ⟨kind, -, r, ⟨key, hr, -⟩, hre⟩
    cases r with
    | entity e' =>
        cases hre
        rw [← h key _ hr] at hr
        exact hr
    | _ => cases hre
  · intro hrow
    refine ⟨e.kind, ?_, _, ⟨_, hrow, ?_⟩, rfl⟩
    · cases e <;> simp [Entity.kind]
    · rw [RecordKey.ofEntity, Entity.kind_key]

theorem dataVersion?_eq_some {v : DataVersion} :
    s.dataVersion? = some v ↔ s.rows[RecordKey.dataVersion]? = some (.dataVersion v) := by
  have honly : ∀ v, s.dataVersion? = some v →
      s.rows[RecordKey.dataVersion]? = some (.dataVersion v) := by
    intro v hv
    obtain ⟨r, hr, hrv⟩ := List.exists_of_findSome?_eq_some hv
    obtain ⟨key, hrow, -⟩ := mem_findAll.mp hr
    cases r with
    | dataVersion v' =>
        cases hrv
        rw [← h key _ hrow] at hrow
        exact hrow
    | _ => cases hrv
  refine ⟨honly v, ?_⟩
  intro hrow
  cases hv : s.dataVersion? with
  | some v' =>
      rw [honly v' hv] at hrow
      cases hrow
      rfl
  | none => exact nomatch List.findSome?_eq_none_iff.mp hv _ (mem_findAll.mpr ⟨_, hrow, rfl⟩)

theorem entity?_load : s.load.entity? = s.rows.entity? :=
  Snapshot.entity?_ofEntities_eq (Rows.keyed h) fun _ => mem_entities h

end WellKeyed

theorem coherent_load (s : Storage) : s.load.Coherent := Snapshot.coherent_ofEntities _ _

end Storage

end RemoteConfig
