import RemoteConfig.Proofs.Faults
import RemoteConfig.Proofs.Rows
/-! # Replicas and their storages

Every operation of a replica has one of four effects: it is refused, its commit fails because that
was ordered, it keeps the snapshot, or it moves on to another snapshot.  In all of them the storage
mirrors the snapshot afterwards if it did before. -/

namespace RemoteConfig

open Table

namespace Storage

/-- The storage holds what the snapshot holds, at the same version. -/
structure Mirrors (s : Storage) (snap : Snapshot) : Prop where
  keyed : s.rows.WellKeyed
  coherent : snap.Coherent
  holdings : s.rows.entity? = snap.entity?
  version : s.rows[RecordKey.dataVersion]? = some (.dataVersion snap.dataVersion)

/-- A storage as nodes leave it behind: without data, or with a data version. -/
structure Sound (s : Storage) : Prop where
  keyed : s.rows.WellKeyed
  initialised : empty.SameData s ∨ s.dataVersion?.isSome

theorem sound_empty : empty.Sound := ⟨Rows.wellKeyed_empty, Or.inl (SameData.refl _)⟩

namespace Mirrors

variable {s s' : Storage} {snap snap' : Snapshot}

theorem dataVersion?_eq (h : s.Mirrors snap) : s.dataVersion? = some snap.dataVersion :=
  (dataVersion?_eq_some h.keyed).mpr h.version

theorem sound (h : s.Mirrors snap) : s.Sound :=
  ⟨h.keyed, Or.inr (by rw [h.dataVersion?_eq]; rfl)⟩

theorem entity?_load (h : s.Mirrors snap) : s.load.entity? = snap.entity? :=
  (Storage.entity?_load h.keyed).trans h.holdings

theorem dataVersion_load (h : s.Mirrors snap) : s.load.dataVersion = snap.dataVersion := by
  rw [load, Snapshot.dataVersion_ofEntities, h.dataVersion?_eq]
  rfl

/-- What is loaded has the dump of the snapshot. -/
theorem dump_load (h : s.Mirrors snap) : s.load.dump = snap.dump :=
  Snapshot.dump_eq (coherent_load s) h.coherent h.entity?_load h.dataVersion_load

theorem congr (h : s.Mirrors snap) (hc : snap'.Coherent) (he : snap'.entity? = snap.entity?)
    (hv : snap'.dataVersion = snap.dataVersion) : s.Mirrors snap' :=
  ⟨h.keyed, hc, h.holdings.trans he.symm, by rw [hv]; exact h.version⟩

theorem sameData (h : s.Mirrors snap) (hk : s'.rows.WellKeyed) (hs : s.SameData s') :
    s'.Mirrors snap :=
  ⟨hk, h.coherent, (Rows.entity?_congr fun k => hs (.ofEntity k) nofun).trans h.holdings,
    (hs .dataVersion nofun).trans h.version⟩

end Mirrors

theorem Sound.sameData {s s' : Storage} (h : s.Sound) (hk : s'.rows.WellKeyed)
    (hs : s.SameData s') : s'.Sound := by
  refine ⟨hk, h.initialised.imp (·.trans hs) ?_⟩
  intro hv
  rwa [hs.dataVersion?_eq]

/-- A storage with a data version mirrors what is loaded from it. -/
theorem mirrors_load {s : Storage} (h : s.Sound) {v : DataVersion} (hv : s.dataVersion? = some v) :
    s.Mirrors s.load := by
  refine ⟨h.keyed, coherent_load s, (entity?_load h.keyed).symm, ?_⟩
  rw [load, Snapshot.dataVersion_ofEntities, hv]
  exact (dataVersion?_eq_some h.keyed).mp hv

theorem entity?_of_sameData_empty {s : Storage} (h : empty.SameData s) :
    s.rows.entity? = Holdings.empty := by
  refine (Rows.entity?_congr fun k => h (.ofEntity k) nofun).trans ?_
  funext k
  simp [Rows.entity?, empty, Holdings.empty]

/-- Nothing is loaded from a storage without data. -/
theorem load_of_sameData_empty {s : Storage} (h : empty.SameData s) : s.load = .empty :=
  h.load_eq.trans rfl

theorem dataVersion?_of_sameData_empty {s : Storage} (h : empty.SameData s) :
    s.dataVersion? = none := h.dataVersion?_eq.trans rfl

/-- A commit that was told to fail does nothing else. -/
theorem commit_of_failsNext {s : Storage} (h : s.failsNext = true) (tx : Transaction) :
    s.commit tx = (.error .commitFailed, { s with failsNext := false }) := if_pos h

theorem commit_of_runAll {s : Storage} {operations : List Operation} {rows : Rows}
    (h : s.failsNext = false) (hrun : Operation.runAll s.rows operations = .ok rows) :
    s.commit ⟨operations⟩ = (.ok (), { s with rows := rows }) := by
  rw [commit, if_neg (by simp [h]), hrun]

theorem commit_of_runAll_error {s : Storage} {operations : List Operation} {fault : StorageFault}
    (h : s.failsNext = false) (hrun : Operation.runAll s.rows operations = .error fault) :
    s.commit ⟨operations⟩ = (.error fault, s) := by
  rw [commit, if_neg (by simp [h]), hrun]

end Storage

namespace Replica

variable {r : Replica} {s : Storage}

/-- Writing a mutation down fails only if the commit was told to fail.  Otherwise the storage moves
on with the snapshot. -/
theorem persist_cases {snap : Snapshot} (h : s.Mirrors snap) (d : Delta) (next : DataVersion) :
    (s.failsNext = true ∧ persist s snap d next =
      (.error (.persistence .commitFailed), { s with failsNext := false })) ∨
    ∃ s', persist s snap d next = (.ok (), s') ∧ s'.Mirrors (snap.advance d next) := by
  cases hfail : s.failsNext with
  | true =>
      left
      rw [persist, Storage.commit_of_failsNext hfail]
      exact ⟨rfl, rfl⟩
  | false =>
      right
      obtain ⟨rows, hrun, hk, he, hother⟩ := runAll_stage d.changes h.keyed
        fun k => show snap.contains k = _ by rw [h.holdings, Snapshot.contains_eq_isSome]
      -- the row of the version is that of no entity, so the changes have left it alone
      have hversion : rows[RecordKey.dataVersion]? = some (.dataVersion snap.dataVersion) := by
        rw [hother _ fun k => (RecordKey.ofEntity_ne_dataVersion k).symm]
        exact h.version
      have hmem : RecordKey.dataVersion ∈ rows := by
        rw [Std.ExtTreeMap.mem_iff_isSome_getElem?, hversion]
        rfl
      have hcommit : Operation.runAll s.rows (transaction snap d next).operations =
          .ok (rows.insert .dataVersion (.dataVersion next)) := by
        rw [transaction, hrun]
        simp [Operation.runAll, Operation.run, hmem, bind, Except.bind]
      refine ⟨_, by rw [persist, Storage.commit_of_runAll hfail hcommit]; rfl, ?_⟩
      refine ⟨Rows.wellKeyed_insert hk (.dataVersion next), h.coherent.advance d next, ?_, ?_⟩
      · have hrows : Rows.entity? (rows.insert .dataVersion (.dataVersion next)) =
            Rows.entity? rows := by
          refine Rows.entity?_congr fun k => ?_
          rw [getElem?_insert_ite, if_neg (RecordKey.ofEntity_ne_dataVersion k)]
        rw [hrows, he, h.holdings, Snapshot.entity?_advance]
      · rw [getElem?_insert_ite, if_pos rfl]
        rfl

/-- What an operation can do to a replica and its storage.  It can be refused with a fault of a
storage only if it has `heard` of it.  It can keep the snapshot with an answer in `kept`, or move on
to a snapshot that goes with the answer by `moved`. -/
inductive Effect {α : Type} (r : Replica) (s : Storage) (heard : Error → Prop) (kept : α → Prop)
    (moved : α → Snapshot → Prop) : Except Error α × Replica × Storage → Prop
  | refused (e : Error) (he : ∀ fault, e = .persistence fault → heard e) :
      Effect r s heard kept moved (.error e, r, s)
  | failed (h : s.failsNext = true) :
      Effect r s heard kept moved
        (.error (.persistence .commitFailed), r, { s with failsNext := false })
  | kept (a : α) (r' : Replica) (hsettings : r'.settings = r.settings)
      (hsnapshot : r'.snapshot = r.snapshot) (ha : kept a) :
      Effect r s heard kept moved (.ok a, r', s)
  | moved (a : α) (r' : Replica) (s' : Storage) (hsettings : r'.settings = r.settings)
      (hmirrors : s'.Mirrors r'.snapshot) (ha : moved a r'.snapshot) :
      Effect r s heard kept moved (.ok a, r', s')

theorem Effect.imp {α : Type} {heard heard' : Error → Prop} {kept kept' : α → Prop}
    {moved moved' : α → Snapshot → Prop} {out : Except Error α × Replica × Storage}
    (h : Effect r s heard kept moved out) (hh : ∀ e, heard e → heard' e) (hk : ∀ a, kept a → kept' a)
    (hm : ∀ a snap, moved a snap → moved' a snap) : Effect r s heard' kept' moved' out := by
  cases h with
  | refused e he => exact .refused e fun fault h => hh e (he fault h)
  | failed h => exact .failed h
  | kept a r' hset hsnap ha => exact .kept a r' hset hsnap (hk a ha)
  | moved a r' s' hset hmir ha => exact .moved a r' s' hset hmir (hm a _ ha)

/-- The mutation that a master makes of the changes that `build` asks for: what the slaves are told
leads from the old snapshot to the new one. -/
def Mutated (r : Replica) (m : Moment) (build : Snapshot → Except Error Delta) (c : Committed)
    (snap : Snapshot) : Prop :=
  ∃ d, build r.snapshot = .ok d ∧ r.settings.role = .master ∧
    let next := r.snapshot.dataVersion.next m.sign m.now
    let d := touchOwn r.settings.url r.snapshot d next
    snap = r.snapshot.advance d next ∧ c = ⟨next, pushesFor r.settings.url snap ⟨d, next⟩⟩

/-- How a mutation can end: it is refused, its commit fails because that was ordered, there is
nothing to commit, or it is committed. -/
inductive Mutation (r : Replica) (s : Storage) (m : Moment) (expected : Option Int)
    (build : Snapshot → Except Error Delta) : Except Error Committed × Replica × Storage → Prop
  | refused (e : Error) (he : ∀ fault, e = .persistence fault → build r.snapshot = .error e) :
      Mutation r s m expected build (.error e, r, s)
  | failed (h : s.failsNext = true) :
      Mutation r s m expected build
        (.error (.persistence .commitFailed), r, { s with failsNext := false })
  | idle {d : Delta} (hd : build r.snapshot = .ok d) (hempty : d.isEmpty = true) :
      Mutation r s m expected build (.ok ⟨r.snapshot.dataVersion, []⟩, r, s)
  | committed {d : Delta} (c : Committed) (r' : Replica) (s' : Storage)
      (hexpected : checkExpected expected r.snapshot.dataVersion.version = .ok ())
      (hd : build r.snapshot = .ok d) (hfull : d.isEmpty = false)
      (hsettings : r'.settings = r.settings) (hmirrors : s'.Mirrors r'.snapshot)
      (hc : r.Mutated m build c r'.snapshot) : Mutation r s m expected build (.ok c, r', s')

theorem mutate_cases (h : s.Mirrors r.snapshot) (m : Moment) (expected : Option Int)
    (build : Snapshot → Except Error Delta) :
    Mutation r s m expected build (r.mutate s m expected build) := by
  unfold mutate
  by_cases hrole : r.settings.role ≠ .master
  · rw [if_pos hrole]
    exact .refused _ nofun
  rw [if_neg hrole]
  cases hexpected : checkExpected expected r.snapshot.dataVersion.version with
  | error e =>
      refine .refused e ?_
      rintro fault rfl
      unfold checkExpected at hexpected
      grind
  | ok _ =>
      cases hd : build r.snapshot with
      | error e => exact .refused e fun _ _ => hd
      | ok d =>
          cases hempty : d.isEmpty with
          | true =>
              simp only [hempty, if_true]
              exact .idle hd hempty
          | false =>
              simp only [hempty, commit]
              rcases persist_cases h (touchOwn r.settings.url r.snapshot d
                (r.snapshot.dataVersion.next m.sign m.now))
                (r.snapshot.dataVersion.next m.sign m.now) with ⟨hfail, hp⟩ | ⟨s', hp, hm⟩
              · rw [hp]
                exact .failed hfail
              · rw [hp]
                exact .committed _ _ s' hexpected hd hempty rfl hm
                  ⟨d, hd, not_not.mp hrole, rfl, rfl⟩

theorem mutate_effect (h : s.Mirrors r.snapshot) (m : Moment) (expected : Option Int)
    (build : Snapshot → Except Error Delta) :
    Effect r s (fun e => build r.snapshot = .error e) (·.pushes = []) (r.Mutated m build)
      (r.mutate s m expected build) := by
  have hcases := mutate_cases h m expected build
  generalize r.mutate s m expected build = out at *
  cases hcases with
  | refused e he => exact .refused e he
  | failed hfail => exact .failed hfail
  | idle hd hempty => exact .kept _ r rfl rfl rfl
  | committed c r' s' hexpected hd hfull hsettings hmirrors hc =>
      exact .moved c r' s' hsettings hmirrors hc

/-- A pushed mutation that continues the chain. -/
def Received (r : Replica) (p : Payload) (snap : Snapshot) : Prop :=
  r.settings.role ≠ .master ∧ r.snapshot.dataVersion.isFollowedBy p.dataVersion = true ∧
    snap = r.snapshot.advance (touchOwn r.settings.url r.snapshot p.delta p.dataVersion) p.dataVersion

theorem receive_effect (h : s.Mirrors r.snapshot) (now : Timestamp) (p : Payload) :
    Effect r s (fun _ => False) (fun _ => True) (fun _ => r.Received p) (r.receive s now p) := by
  unfold receive
  by_cases hrole : r.settings.role = .master
  · rw [if_pos hrole]
    exact .refused _ nofun
  rw [if_neg hrole]
  by_cases hsame : r.snapshot.dataVersion = p.dataVersion
  · rw [if_pos hsame]
    exact .kept _ _ rfl rfl trivial
  rw [if_neg hsame]
  cases hnext : r.snapshot.dataVersion.isFollowedBy p.dataVersion with
  | false => exact .refused _ nofun
  | true =>
      simp only [Bool.not_true, Bool.false_eq_true, if_false]
      rcases persist_cases h (touchOwn r.settings.url r.snapshot p.delta p.dataVersion)
        p.dataVersion with ⟨hfail, hp⟩ | ⟨s', hp, hm⟩
      · rw [hp]
        exact .failed hfail
      · rw [hp]
        exact .moved _ _ s' rfl hm ⟨hrole, hnext, rfl⟩

/-- A dump that is not older. -/
def Resynced (r : Replica) (now : Timestamp) (d : Dump) (snap : Snapshot) : Prop :=
  r.settings.role ≠ .master ∧ r.snapshot.dataVersion.version ≤ d.dataVersion.version ∧
    snap = .ofDump (adoptOwn r.settings.url now d)

/-- The changes towards a dump lead to a storage that mirrors what is made of the dump. -/
theorem mirrors_ofDump {snap : Snapshot} (hc : snap.Coherent) {d : Dump}
    (h : s.Mirrors (snap.advance ⟨changesTo snap d⟩ d.dataVersion)) : s.Mirrors (.ofDump d) := by
  refine h.congr (Snapshot.coherent_ofDump d) ?_ ?_
  · rw [Snapshot.entity?_advance, Snapshot.applyAll_changesTo hc]
  · exact Snapshot.dataVersion_ofDump d

theorem resync_effect (h : s.Mirrors r.snapshot) (now : Timestamp) (d : Dump) :
    Effect r s (fun _ => False) (fun _ => True) (fun _ => r.Resynced now d) (r.resync s now d) := by
  unfold resync
  by_cases hrole : r.settings.role = .master
  · rw [if_pos hrole]
    exact .refused _ nofun
  rw [if_neg hrole]
  by_cases hold : d.dataVersion.version < r.snapshot.dataVersion.version ∨
      d.dataVersion = r.snapshot.dataVersion
  · rw [if_pos hold]
    exact .kept _ _ rfl rfl trivial
  rw [if_neg hold]
  have hnewer : r.snapshot.dataVersion.version ≤ d.dataVersion.version :=
    Int.not_lt.mp fun hlt => hold (Or.inl hlt)
  simp only
  generalize hd' : adoptOwn r.settings.url now d = d'
  rcases persist_cases h ⟨changesTo r.snapshot d'⟩ d'.dataVersion with ⟨hfail, hp⟩ | ⟨s', hp, hm⟩
  · rw [hp]
    exact .failed hfail
  · rw [hp]
    exact .moved _ _ s' rfl (mirrors_ofDump h.coherent hm) ⟨hrole, hnewer, hd' ▸ rfl⟩

theorem sync_effect (h : s.Mirrors r.snapshot) (now : Timestamp)
    (version : Except Error DataVersion) (dump : Except Error Dump) :
    Effect r s (fun e => version = .error e ∨ dump = .error e) (fun _ => True)
      (fun _ snap => ∃ d, dump = .ok d ∧ r.Resynced now d snap) (r.sync s now version dump) := by
  unfold sync
  cases hurl : r.settings.masterUrl.isNone with
  | true => exact .refused _ nofun
  | false =>
      simp only [Bool.false_eq_true, if_false]
      cases version with
      | error e => exact .refused e fun _ _ => Or.inl rfl
      | ok v =>
          by_cases hv : v = r.snapshot.dataVersion
          · simp only [hv, if_true]
            exact .kept _ _ rfl rfl trivial
          simp only [hv, if_false]
          cases dump with
          | error e => exact .refused e fun _ _ => Or.inr rfl
          | ok d =>
              exact (resync_effect h now d).imp (fun _ => False.elim) (fun _ => id)
                fun _ _ hmoved => ⟨d, rfl, hmoved⟩

/-! ## Starting -/

end Replica

/-- The snapshot of a node that starts without data: a master has registered itself. -/
def Snapshot.initial (settings : Settings) (v : DataVersion) : Snapshot :=
  if settings.role = .master then
    { empty.upsert (.node ⟨settings.url, .master, some v.updatedAt, v.version⟩) with dataVersion := v }
  else { empty with dataVersion := v }

@[simp]
theorem Snapshot.dataVersion_initial (settings : Settings) (v : DataVersion) :
    (initial settings v).dataVersion = v := by
  unfold initial
  split <;> rfl

theorem Snapshot.coherent_initial (settings : Settings) (v : DataVersion) :
    (initial settings v).Coherent := by
  unfold initial
  split
  · exact (coherent_empty.apply (.upsert _)).setVersion v
  · exact coherent_empty.setVersion v

section Initial

variable (settings : Settings) (v : DataVersion)

/-- Beside nodes, a node starts with nothing. -/
theorem Snapshot.tables_initial : (initial settings v).apps = ∅ ∧ (initial settings v).configs = ∅ ∧
    (initial settings v).webhooks = ∅ := by
  unfold initial
  split
  · exact ⟨rfl, rfl, rfl⟩
  · exact ⟨rfl, rfl, rfl⟩

theorem Snapshot.apps_initial : (initial settings v).apps = ∅ := (tables_initial settings v).1

theorem Snapshot.configs_initial : (initial settings v).configs = ∅ :=
  (tables_initial settings v).2.1

theorem Snapshot.webhooks_initial : (initial settings v).webhooks = ∅ :=
  (tables_initial settings v).2.2

end Initial

namespace Replica

/-- A storage without data takes the first rows. -/
theorem commit_initialRecords {s : Storage} (h : s.Sound) (hempty : Storage.empty.SameData s)
    (hfail : s.failsNext = false) (settings : Settings) (v : DataVersion) :
    ∃ s', s.commit ⟨(initialRecords settings v).map .insert⟩ = (.ok (), s') ∧
      s'.Mirrors (.initial settings v) := by
  -- attribute values may have been recorded already, but they get in the way of no other row
  have habsent : ∀ key : RecordKey, key.kind ≠ .clientAttribute → key ∉ s.rows := by
    intro key hkey hmem
    rw [Std.ExtTreeMap.mem_iff_isSome_getElem?, hempty key hkey] at hmem
    simp [Storage.empty] at hmem
  let rows₁ := s.rows.insert .dataVersion (.dataVersion v)
  have hk₁ : Rows.WellKeyed rows₁ := Rows.wellKeyed_insert h.keyed (.dataVersion v)
  have he₁ : Rows.entity? rows₁ = Holdings.empty := by
    rw [← Storage.entity?_of_sameData_empty hempty]
    refine Rows.entity?_congr fun k => ?_
    rw [getElem?_insert_ite, if_neg (RecordKey.ofEntity_ne_dataVersion k)]
  have hv₁ : rows₁[RecordKey.dataVersion]? = some (.dataVersion v) := by
    rw [getElem?_insert_ite, if_pos rfl]
  have hnew : RecordKey.dataVersion ∉ s.rows := habsent .dataVersion nofun
  by_cases hrole : settings.role = .master
  · -- a master also enters its own node
    let own : Entity := .node ⟨settings.url, .master, some v.updatedAt, v.version⟩
    have hown : RecordKey.ofEntity own.key ∉ rows₁ := by
      intro hmem
      rw [Std.ExtTreeMap.mem_iff_isSome_getElem?, getElem?_insert_ite,
        if_neg (RecordKey.ofEntity_ne_dataVersion _), ← Std.ExtTreeMap.mem_iff_isSome_getElem?] at hmem
      exact habsent (.ofEntity own.key) nofun hmem
    have hrun : Operation.runAll s.rows ((initialRecords settings v).map .insert) =
        .ok (rows₁.insert (.ofEntity own.key) (.entity own)) := by
      have hfirst : Operation.run s.rows (.insert (.dataVersion v)) = .ok rows₁ := if_neg hnew
      have hsecond : Operation.run rows₁ (.insert (.entity own)) =
        .ok (rows₁.insert (.ofEntity own.key) (.entity own)) := if_neg hown
      simp only [initialRecords, hrole, if_true, List.map_cons, List.map_nil, Operation.runAll,
        hfirst, bind, Except.bind]
      rw [hsecond]
    have hsnap : Snapshot.initial settings v =
        { Snapshot.empty.upsert own with dataVersion := v } := if_pos hrole
    refine ⟨_, Storage.commit_of_runAll hfail hrun, Rows.wellKeyed_insert hk₁ (.entity own),
      Snapshot.coherent_initial settings v, ?_, ?_⟩
    · rw [hsnap, Rows.entity?_insert_entity, he₁, Snapshot.entity?_dataVersion,
        Snapshot.entity?_upsert, Snapshot.entity?_empty]
    · rw [getElem?_insert_ite, if_neg (RecordKey.ofEntity_ne_dataVersion _).symm, hv₁,
        Snapshot.dataVersion_initial]
  · have hrun : Operation.runAll s.rows ((initialRecords settings v).map .insert) = .ok rows₁ := by
      have hfirst : Operation.run s.rows (.insert (.dataVersion v)) = .ok rows₁ := if_neg hnew
      simp only [initialRecords, hrole, if_false, List.map_cons, List.map_nil, Operation.runAll,
        hfirst, bind, Except.bind]
    have hsnap : Snapshot.initial settings v = { Snapshot.empty with dataVersion := v } :=
      if_neg hrole
    refine ⟨_, Storage.commit_of_runAll hfail hrun, hk₁,
      Snapshot.coherent_initial settings v, ?_, ?_⟩
    · rw [he₁, hsnap, Snapshot.entity?_dataVersion, Snapshot.entity?_empty]
    · rw [hv₁, Snapshot.dataVersion_initial]

/-- A storage without data is initialised, unless the commit was told to fail. -/
theorem open?_of_sameData_empty {s : Storage} (h : s.Sound) (hempty : Storage.empty.SameData s)
    (settings : Settings) (m : Moment) :
    (s.failsNext = true ∧ open? settings s m =
      (.error (.persistence .commitFailed), { s with failsNext := false })) ∨
    ∃ s', open? settings s m = (.ok (.initial settings (.initial m.spare m.now)), s') ∧
      s'.Mirrors (.initial settings (.initial m.spare m.now)) := by
  have hnone : ¬ s.dataVersion?.isSome = true := by
    rw [Storage.dataVersion?_of_sameData_empty hempty]
    exact nofun
  cases hfail : s.failsNext with
  | true =>
      left
      simp only [open?, hnone, Storage.commit_of_failsNext hfail]
      exact ⟨trivial, rfl⟩
  | false =>
      right
      obtain ⟨s', hcommit, hmirrors⟩ :=
        commit_initialRecords h hempty hfail settings (.initial m.spare m.now)
      refine ⟨s', ?_, hmirrors⟩
      simp only [open?, hnone, hcommit, Storage.load_of_sameData_empty hempty]
      unfold Snapshot.initial initialRecords
      by_cases hrole : settings.role = .master
      · simp only [hrole, if_true]
        rfl
      · simp only [hrole, if_false]
        rfl

/-- A master that has just registered itself has nothing to claim. -/
theorem claim_initial {settings : Settings} (hrole : settings.role = .master) (now : Timestamp)
    (v : DataVersion) : claim settings now (.initial settings v) = .ok .empty := by
  let own : Node := ⟨settings.url, .master, some v.updatedAt, v.version⟩
  have hnodes : (Snapshot.initial settings v).nodes = (∅ : Table Node).insert own.url own := by
    rw [Snapshot.initial, if_pos hrole]
    rfl
  have honly : ∀ n ∈ (Snapshot.initial settings v).nodes.values, n = own := by
    intro n hn
    obtain ⟨url, hurl⟩ := mem_values.mp hn
    rw [hnodes, getElem?_insert_ite] at hurl
    split at hurl
    · exact (Option.some.inj hurl).symm
    · simp at hurl
  have hnode : (Snapshot.initial settings v).node? settings.url = some own := by
    rw [Snapshot.node?, hnodes, getElem?_insert_ite, if_pos rfl]
  unfold claim
  cases hmaster : (Snapshot.initial settings v).master? with
  | none =>
      simp only [hnode]
      rfl
  | some other =>
      have hother : other.url = settings.url := by
        rw [honly other (List.mem_of_find?_eq_some hmaster)]
      simp only [hnode, hother, if_true]
      rfl

/-- A node that has nothing to claim when it starts. -/
def Unclaiming (settings : Settings) (s : Snapshot) (now : Timestamp) : Prop :=
  settings.role = .master → ∃ d, claim settings now s = .ok d ∧ d.isEmpty = true

/-- How a replica can start. -/
inductive Started (settings : Settings) (s : Storage) (m : Moment) :
    Except Error (Replica × List (String × Payload)) × Storage → Prop
  | refused (e : Error) (he : ∀ fault, e ≠ .persistence fault) : Started settings s m (.error e, s)
  | failed (h : s.failsNext = true) :
      Started settings s m (.error (.persistence .commitFailed), { s with failsNext := false })
  | fresh (r : Replica) (s' : Storage) (hs : Storage.empty.SameData s)
      (hsettings : r.settings = settings)
      (hsnapshot : r.snapshot = .initial settings (.initial m.spare m.now))
      (hmirrors : s'.Mirrors r.snapshot) : Started settings s m (.ok (r, []), s')
  | loaded (r : Replica) (hs : s.dataVersion?.isSome) (hsettings : r.settings = settings)
      (hsnapshot : r.snapshot = s.load) (hclaim : Unclaiming settings s.load m.now) :
      Started settings s m (.ok (r, []), s)
  | claimed {d : Delta} (r : Replica) (s' : Storage) (c : Committed) (hs : s.dataVersion?.isSome)
      (hsettings : r.settings = settings) (hmirrors : s'.Mirrors r.snapshot)
      (hd : claim settings m.now s.load = .ok d) (hfull : d.isEmpty = false)
      (hc : Mutated ⟨settings, .ofSnapshot s.load⟩ m (claim settings m.now) c r.snapshot) :
      Started settings s m (.ok (r, c.pushes), s')

theorem start_cases {s : Storage} (h : s.Sound) (settings : Settings) (m : Moment) :
    Started settings s m (start settings s m) := by
  unfold start
  rcases h.initialised with hempty | hversion
  · -- the storage is initialised first, and a master is registered with its first rows
    rcases open?_of_sameData_empty h hempty settings m with ⟨hfail, hopen⟩ | ⟨s', hopen, hmirrors⟩
    · rw [hopen]
      exact .failed hfail
    · rw [hopen]
      dsimp only
      generalize hr : (⟨settings, .ofSnapshot _⟩ : Replica) = r
      have hsettings : r.settings = settings := by rw [← hr]
      have hsnapshot : r.snapshot = .initial settings (.initial m.spare m.now) := by rw [← hr]; rfl
      rw [← hsnapshot] at hmirrors
      by_cases hrole : settings.role = .master
      · have hclaim : claim settings m.now r.snapshot = .ok .empty := by
          rw [hsnapshot]
          exact claim_initial hrole _ _
        rw [if_neg (not_not.mpr hrole)]
        simp only [mutate, hsettings, hrole, checkExpected, hclaim]
        exact .fresh r s' hempty hsettings hsnapshot hmirrors
      · rw [if_pos hrole]
        exact .fresh r s' hempty hsettings hsnapshot hmirrors
  · obtain ⟨v, hv⟩ := Option.isSome_iff_exists.mp hversion
    have hmirrors : s.Mirrors (Replica.snapshot ⟨settings, .ofSnapshot s.load⟩) :=
      Storage.mirrors_load h hv
    have hopen : open? settings s m = (.ok s.load, s) := if_pos hversion
    rw [hopen]
    dsimp only
    by_cases hrole : settings.role = .master
    · have hcases := mutate_cases hmirrors m none (claim settings m.now)
      rw [if_neg (not_not.mpr hrole)]
      generalize mutate ⟨settings, .ofSnapshot s.load⟩ s m none (claim settings m.now) = out at *
      cases hcases with
      | refused e he =>
          exact .refused e fun fault hfault => unfailing_claim settings m.now s.load fault
            (hfault ▸ he fault hfault)
      | failed hfail => exact .failed hfail
      | @idle d hd hempty => exact .loaded _ hversion rfl rfl fun _ => ⟨d, hd, hempty⟩
      | committed c r' s' _ hd hfull hsettings hmirrors' hc =>
          exact .claimed r' s' c hversion hsettings hmirrors' hd hfull hc
    · rw [if_pos hrole]
      exact .loaded _ hversion rfl rfl fun h => absurd h hrole

end Replica

end RemoteConfig
