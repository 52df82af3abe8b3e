import RemoteConfig.Proofs.Invariant
/-! # The registry of nodes

Nodes are entered in a registry.  A master enters itself when it starts, and operators enter, change
and remove nodes as they like; still there is never a second master in the registry, and the one who
runs is in it. -/

namespace RemoteConfig

open Table

namespace Snapshot

/-- The node at an address is registered as a master. -/
def IsMaster (s : Snapshot) (url : String) : Prop :=
  ∃ n, s.nodes[url]? = some n ∧ n.role = .master

/-- No two nodes are registered as masters. -/
def SingleMaster (s : Snapshot) : Prop := ∀ url url', s.IsMaster url → s.IsMaster url' → url = url'

/-- The node at an address is registered as a master, and it is the only one. -/
def MasterIs (s : Snapshot) (own : String) : Prop := ∀ url, s.IsMaster url ↔ url = own

variable {s t : Snapshot} {url : String}

/-- Progress has nothing to do with roles. -/
theorem Agrees.isMaster (h : s.Agrees t) (hm : s.IsMaster url) : t.IsMaster url := by
  obtain ⟨n, hn, hrole⟩ := hm
  have hnodes := nodes_eq_of_withoutProgress h.holdings url
  rw [hn, Option.map_some, eq_comm, Option.map_eq_some_iff] at hnodes
  obtain ⟨n', hn', hsame⟩ := hnodes
  have hrole' : n'.withoutProgress.role = n.withoutProgress.role := congrArg Node.role hsame
  exact ⟨n', hn', Eq.trans hrole' hrole⟩

theorem Agrees.isMaster_iff (h : s.Agrees t) : t.IsMaster url ↔ s.IsMaster url :=
  ⟨h.symm.isMaster, h.isMaster⟩

theorem Agrees.singleMaster (h : s.Agrees t) (hs : s.SingleMaster) : t.SingleMaster :=
  fun url url' hurl hurl' => hs url url' (h.symm.isMaster hurl) (h.symm.isMaster hurl')

theorem singleMaster_empty : empty.SingleMaster := by
  rintro url url' ⟨n, hn, -⟩
  simp [empty] at hn

theorem MasterIs.singleMaster {own : String} (h : s.MasterIs own) : s.SingleMaster := by
  intro url url' hurl hurl'
  rw [(h url).mp hurl, (h url').mp hurl']

theorem SingleMaster.masterIs (h : s.SingleMaster) (hm : s.IsMaster url) : s.MasterIs url := by
  intro url'
  constructor
  · exact fun hm' => h url' url hm' hm
  · rintro rfl
    exact hm

/-- Whoever is asked for the master finds the one that is registered. -/
theorem SingleMaster.master?_eq (h : s.SingleMaster) (hs : s.Coherent) (hm : s.IsMaster url) :
    ∃ n, s.master? = some n ∧ n.url = url := by
  obtain ⟨n, hn, hrole⟩ := hm
  cases hfound : s.master? with
  | none =>
      have hnone := List.find?_eq_none.mp hfound n (mem_values.mpr ⟨url, hn⟩)
      exact absurd (decide_eq_true hrole) hnone
  | some n' =>
      obtain ⟨url', hn'⟩ := mem_values.mp (List.mem_of_find?_eq_some hfound)
      have hrole' : n'.role = .master := by simpa using List.find?_some hfound
      refine ⟨n', rfl, ?_⟩
      rw [hs.node_url hn', h url' url ⟨n', hn', hrole'⟩ ⟨n, hn, hrole⟩]

/-! ## Registered masters after changes -/

theorem isMaster_upsert (n : Node) : (s.upsert (.node n)).IsMaster url ↔
    if url = n.url then n.role = .master else s.IsMaster url := by
  show (∃ n', (s.nodes.insert n.url n)[url]? = some n' ∧ n'.role = .master) ↔ _
  rw [getElem?_insert_ite]
  split
  · simp
  · exact Iff.rfl

/-- A master that is entered where no other one is. -/
theorem masterIs_upsert {n : Node} (hrole : n.role = .master)
    (hother : ∀ url, s.IsMaster url → url = n.url) : (s.upsert (.node n)).MasterIs n.url := by
  intro url
  rw [isMaster_upsert]
  split
  · rename_i hurl
    exact iff_of_true hrole hurl
  · rename_i hne
    exact iff_of_false (fun hm => hne (hother url hm)) hne

theorem isMaster_delete (gone : String) : (s.delete ⟨.node, gone⟩).IsMaster url ↔
    url ≠ gone ∧ s.IsMaster url := by
  show (∃ n, (s.nodes.erase gone)[url]? = some n ∧ n.role = .master) ↔ _
  rw [getElem?_erase_ite]
  split
  · simp [*]
  · simp only [ne_eq, *, not_false_eq_true, true_and]
    exact Iff.rfl

/-- Changes of other entities leave the nodes as they are. -/
theorem isMaster_applyAll_of_ne {changes : List Change} (h : ∀ c ∈ changes, c.key.kind ≠ .node) :
    (s.applyAll changes).IsMaster url ↔ s.IsMaster url := by
  have hnodes : (s.applyAll changes).nodes = s.nodes := by
    refine nodes_eq fun key => ?_
    rw [entity?_applyAll]
    refine Holdings.applyAll_of_not_mem ?_
    intro c hc hkey
    exact h c hc (by rw [hkey])
  rw [IsMaster, IsMaster, hnodes]

theorem masterIs_initial {settings : Settings} (hrole : settings.role = .master) (v : DataVersion) :
    (initial settings v).MasterIs settings.url := by
  have hinitial : (initial settings v).MasterIs settings.url ↔ (empty.upsert
      (.node ⟨settings.url, .master, some v.updatedAt, v.version⟩)).MasterIs settings.url := by
    unfold initial
    rw [if_pos hrole]
    exact Iff.rfl
  rw [hinitial]
  refine masterIs_upsert rfl ?_
  intro url hm
  simp [IsMaster, empty] at hm

end Snapshot

/-! ## What claims and requests keep -/

namespace Replica

variable {settings : Settings} {now : Timestamp} {s : Snapshot} {d : Delta}

/-- After a claim, the node that made it is the only master. -/
theorem Claimed.masterIs (h : Claimed settings now s d) (hs : s.Coherent)
    (hsingle : s.SingleMaster) : (s.applyAll d.changes).MasterIs settings.url := by
  cases h with
  | holding hown hrole hmaster => exact hsingle.masterIs ⟨_, hown, hrole⟩
  | entering hmaster =>
      show (s.upsert (.node (ownNode settings now s))).MasterIs settings.url
      refine Snapshot.masterIs_upsert rfl ?_
      intro url hm
      obtain ⟨n, hn, rfl⟩ := hsingle.master?_eq hs hm
      exact hmaster n hn
  | @replacing other hother hne hreplaces =>
      show ((s.delete ⟨.node, other.url⟩).upsert (.node (ownNode settings now s))).MasterIs
        settings.url
      refine Snapshot.masterIs_upsert rfl ?_
      intro url hm
      obtain ⟨hkept, hm⟩ := (Snapshot.isMaster_delete _).mp hm
      obtain ⟨n, hn, rfl⟩ := hsingle.master?_eq hs hm
      exact absurd (congrArg Node.url (Option.some.inj (hn.symm.trans hother))) hkept

end Replica

namespace Write

variable {sign : String} {s : Snapshot} {w : Write} {changes : List Change} {settings : Settings}

/-- Operators can neither demote nor remove the node that they talk to, nor register a second
master. -/
theorem Accepted.masterIs (h : Accepted sign s w changes) (hcheck : w.check settings = .ok ())
    (hs : s.Coherent) (hm : s.MasterIs settings.url) :
    (s.applyAll changes).MasterIs settings.url := by
  have hother : (∀ c ∈ changes, c.key.kind ≠ .node) →
      (s.applyAll changes).MasterIs settings.url := by
    intro hkind url
    rw [Snapshot.isMaster_applyAll_of_ne hkind]
    exact hm url
  cases h with
  | @putNode n hmaster =>
      intro url
      show (s.upsert (.node n)).IsMaster url ↔ _
      rw [Snapshot.isMaster_upsert]
      split
      · rename_i hurl
        obtain ⟨master, hfound, hown⟩ := hm.singleMaster.master?_eq hs ((hm _).mpr rfl)
        rw [← hmaster master hfound, hown, hurl, eq_comm]
      · exact hm url
  | @deleteNode gone h =>
      have hne : settings.url ≠ gone := by
        have hallowed := refuseIf_eq_ok hcheck
        simpa [eq_comm] using hallowed
      intro url
      show (s.delete ⟨.node, gone⟩).IsMaster url ↔ _
      rw [Snapshot.isMaster_delete, hm url]
      constructor
      · exact And.right
      · rintro rfl
        exact ⟨hne, rfl⟩
  | deleteApp =>
      refine hother ?_
      intro c hc
      rcases List.mem_cons.mp hc with rfl | hhook
      · exact nofun
      · rw [kind_unhook c hhook]
        exact nofun
  | _ => exact hother (by simp [Change.key, Entity.key])

end Write

/-- Masters keep the registry to themselves. -/
theorem invariant_singleMaster : Invariant (fun _ => True) Snapshot.SingleMaster
    fun settings s => s.MasterIs settings.url where
  bounded_congr _ _ := trivial
  data_congr h hsingle := h.singleMaster hsingle
  own_congr h hm := fun url => h.isMaster_iff.trans (hm url)
  initial v hrole :=
    ⟨(Snapshot.masterIs_initial hrole v).singleMaster, Snapshot.masterIs_initial hrole v⟩
  loaded {settings now s} hrole hsingle hclaim := by
    obtain ⟨d, hd, hempty⟩ := hclaim hrole
    cases Replica.claimed_of_claim hd with
    | holding hown hmaster => exact hsingle.masterIs ⟨_, hown, hmaster⟩
    | entering => simp [Delta.isEmpty, Delta.upsert] at hempty
    | replacing => simp [Delta.isEmpty, Delta.upsert] at hempty
  claimed hs _ hsingle hd _ :=
    ⟨(hd.masterIs hs hsingle).singleMaster, hd.masterIs hs hsingle⟩
  written hs _ _ hm hcheck hw _ :=
    ⟨(hw.masterIs hcheck hs hm).singleMaster, hw.masterIs hcheck hs hm⟩

/-! ## Rows of masters -/

/-- Whether a row is that of a node which is registered as a master. -/
def Record.isMaster : Record → Bool
  | .entity (.node n) => n.role = .master
  | _ => false

namespace Storage

/-- The rows of masters, with their keys. -/
def masterRows (s : Storage) : List (RecordKey × Record) :=
  s.rows.toList.filter fun row => row.2.isMaster

variable {s : Storage}

theorem mem_masterRows {row : RecordKey × Record} :
    row ∈ s.masterRows ↔ s.rows[row.1]? = some row.2 ∧ row.2.isMaster = true := by
  rw [masterRows, List.mem_filter, Std.ExtTreeMap.mem_toList_iff_getElem?_eq_some]

/-- The rows of masters are those of the nodes that are loaded as masters. -/
theorem eq_of_mem_masterRows (h : s.rows.WellKeyed) {row : RecordKey × Record}
    (hrow : row ∈ s.masterRows) : ∃ n, row = (.ofEntity ⟨.node, n.url⟩, .entity (.node n)) ∧
      s.load.IsMaster n.url := by
  obtain ⟨key, r⟩ := row
  obtain ⟨hget, hmaster⟩ := mem_masterRows.mp hrow
  have hkey := h key r hget
  cases r with
  | entity e =>
      cases e with
      | node n =>
          have hrole : n.role = .master := of_decide_eq_true hmaster
          obtain rfl : RecordKey.ofEntity ⟨.node, n.url⟩ = key := hkey
          have hloaded : s.load.entity? ⟨.node, n.url⟩ = some (.node n) := by
            rw [entity?_load h, Rows.entity?_eq_some]
            exact hget
          exact ⟨n, rfl, n, by simpa [Snapshot.entity?] using hloaded, hrole⟩
      | _ => cases hmaster
  | _ => cases hmaster

theorem exists_mem_masterRows (h : s.rows.WellKeyed) {url : String} (hm : s.load.IsMaster url) :
    ∃ n, (RecordKey.ofEntity ⟨.node, url⟩, Record.entity (.node n)) ∈ s.masterRows ∧
      n.url = url := by
  obtain ⟨n, hn, hrole⟩ := hm
  have hstored : s.rows[RecordKey.ofEntity ⟨.node, url⟩]? = some (.entity (.node n)) := by
    rw [← Rows.entity?_eq_some, ← entity?_load h]
    simp [Snapshot.entity?, hn]
  exact ⟨n, mem_masterRows.mpr ⟨hstored, decide_eq_true hrole⟩, (coherent_load s).node_url hn⟩

theorem length_masterRows (h : s.rows.WellKeyed) (hsingle : s.load.SingleMaster) :
    s.masterRows.length ≤ 1 := by
  have hkeys : s.masterRows.Pairwise fun a b => a.1 ≠ b.1 := (pairwise_toList _).filter _
  have hsame : ∀ row ∈ s.masterRows, ∀ row' ∈ s.masterRows, row.1 = row'.1 := by
    intro row hrow row' hrow'
    obtain ⟨n, rfl, hn⟩ := eq_of_mem_masterRows h hrow
    obtain ⟨n', rfl, hn'⟩ := eq_of_mem_masterRows h hrow'
    rw [hsingle _ _ hn hn']
  refine length_le_one_of_pairwise hkeys ?_
  intro row hrow row' hrow' hne
  exact hne (hsame row hrow row' hrow')

/-- Where a master is registered, its row is the only one of a master. -/
theorem masterRows_eq (h : s.rows.WellKeyed) {url : String} (hm : s.load.MasterIs url) :
    ∃ n, s.masterRows = [(.ofEntity ⟨.node, url⟩, .entity (.node n))] ∧ n.url = url := by
  obtain ⟨n, hmem, hurl⟩ := exists_mem_masterRows h ((hm url).mpr rfl)
  have hlength := length_masterRows h hm.singleMaster
  match hrows : s.masterRows with
  | [] =>
      rw [hrows] at hmem
      exact absurd hmem List.not_mem_nil
  | [row] =>
      rw [hrows, List.mem_singleton] at hmem
      exact ⟨n, by rw [hmem], hurl⟩
  | _ :: _ :: rest =>
      rw [hrows] at hlength
      simp at hlength

end Storage

/-! ## Masters that start -/

namespace Replica

/-- A start is refused as long as another master is registered, unless it may be replaced. -/
theorem start_of_master? {settings : Settings} {s : Storage} (hv : s.dataVersion?.isSome)
    {other : Node} (hother : s.load.master? = some other) (hne : other.url ≠ settings.url)
    (hrole : settings.role = .master) (hreplaces : settings.replacesMaster = false) (m : Moment) :
    start settings s m = (.error (.masterConflict other.url), s) := by
  have hopen : open? settings s m = (.ok s.load, s) := if_pos hv
  have hclaim : claim settings m.now (snapshot ⟨settings, .ofSnapshot s.load⟩) =
      .error (.masterConflict other.url) := claim_eq_error hother hne hreplaces
  unfold start
  rw [hopen]
  simp only [hrole, ne_eq, not_true_eq_false, if_false, mutate, checkExpected, hclaim]

end Replica

namespace Host

/-- Whatever the reason, a start that fails leaves the rows as they were. -/
theorem rows_start_of_error {h : Host} (hs : h.Synced) {settings : Settings} {limits : Limits}
    {m : Moment} {e : Error} (he : (h.step (.start settings limits m)).1 = .error e) :
    (h.step (.start settings limits m)).2.storage.rows = h.storage.rows := by
  have hstart := Replica.start_cases hs.sound settings m
  unfold step Service.start at he ⊢
  dsimp only at he ⊢
  generalize Replica.start settings h.storage m = out at *
  cases hstart with
  | refused => rfl
  | failed => rfl
  | fresh => cases he
  | loaded => cases he
  | claimed => cases he

/-- What would be loaded from the storage of a master never has two masters. -/
theorem Upholds.singleMaster_load {own : Settings → Snapshot → Prop} {h : Host}
    (hu : h.Upholds Snapshot.SingleMaster own) (hs : h.Synced) :
    h.storage.load.SingleMaster := by
  rcases hs.sound.initialised with hempty | hv
  · rw [Storage.load_of_sameData_empty hempty]
    exact Snapshot.singleMaster_empty
  · exact hu.held _ (Or.inl ⟨hv, rfl⟩)

/-- As long as a master of another address is registered, a start that may not replace it is refused
and changes nothing. -/
theorem step_start_of_masterRow {h : Host} (hs : h.Synced) (hsingle : h.storage.load.SingleMaster)
    {row : RecordKey × Record} (hrow : row ∈ h.storage.masterRows) {settings : Settings}
    (hne : row.1 ≠ .ofEntity ⟨.node, settings.url⟩) (hrole : settings.role = .master)
    (hreplaces : settings.replacesMaster = false) (limits : Limits) (m : Moment) :
    ∃ n, row = (.ofEntity ⟨.node, n.url⟩, .entity (.node n)) ∧
      h.step (.start settings limits m) = (.error (.masterConflict n.url), ⟨h.storage, none⟩) := by
  obtain ⟨n, rfl, hm⟩ := Storage.eq_of_mem_masterRows hs.sound.keyed hrow
  obtain ⟨other, hother, hurl⟩ := hsingle.master?_eq (Storage.coherent_load _) hm
  have hv : h.storage.dataVersion?.isSome := by
    refine hs.sound.initialised.resolve_left ?_
    intro hempty
    rw [Storage.load_of_sameData_empty hempty] at hother
    cases hother
  have hne' : other.url ≠ settings.url := by
    rintro heq
    exact hne (by rw [← heq, hurl])
  refine ⟨n, rfl, ?_⟩
  unfold step Service.start
  dsimp only
  rw [Replica.start_of_master? hv hother hne' hrole hreplaces, hurl]

/-- On the storage of masters that are written by operators there is never more than one row of a
master, and while a service runs there is one: its own.  A start that may not replace another master
is refused as long as one is registered, and no start that is refused changes a row. -/
theorem single_master {actions : List Action}
    (hactions : ∀ a ∈ actions, a.StartsAs .master ∧ a.ByOperators) :
    (run actions).storage.masterRows.length ≤ 1 ∧
    (∀ sv, (run actions).running = some sv →
      (∃ n, (run actions).storage.masterRows =
        [(.ofEntity ⟨.node, sv.replica.settings.url⟩, .entity (.node n))] ∧
          n.url = sv.replica.settings.url) ∧
      sv.snapshot.MasterIs sv.replica.settings.url) ∧
    ∀ settings limits m, settings.role = .master →
      (settings.replacesMaster = false → ∀ row ∈ (run actions).storage.masterRows,
        row.1 ≠ .ofEntity ⟨.node, settings.url⟩ →
          ∃ n, row = (.ofEntity ⟨.node, n.url⟩, .entity (.node n)) ∧
            (run actions).step (.start settings limits m) =
              (.error (.masterConflict n.url), ⟨(run actions).storage, none⟩)) ∧
      ∀ e, ((run actions).step (.start settings limits m)).1 = .error e →
        ((run actions).step (.start settings limits m)).2.storage.rows =
          (run actions).storage.rows := by
  obtain ⟨hu, ho⟩ := invariant_singleMaster.run hactions fun _ _ _ _ => trivial
  have hsingle := hu.singleMaster_load ho.synced
  refine ⟨Storage.length_masterRows ho.synced.sound.keyed hsingle, ?_, ?_⟩
  · intro sv hsv
    have hm := hu.running sv hsv
    have hmirrors := ho.synced.mirrors sv hsv
    have hloaded : (run actions).storage.load.MasterIs sv.replica.settings.url := by
      have hagrees : (run actions).storage.load.Agrees sv.snapshot :=
        ⟨Storage.coherent_load _, hmirrors.coherent, by rw [hmirrors.entity?_load]⟩
      exact fun url => hagrees.symm.isMaster_iff.trans (hm url)
    exact ⟨Storage.masterRows_eq hmirrors.keyed hloaded, hm⟩
  · intro settings limits m hrole
    constructor
    · intro hreplaces row hrow hne
      exact step_start_of_masterRow ho.synced hsingle hrow hne hrole hreplaces limits m
    · intro e he
      exact rows_start_of_error ho.synced he

/-- A master that enters a slave, but no second master; then another master, which is refused until
it may replace the first one. -/
def takeoverRun : List Action :=
  [.start ⟨"http://m", .master, none, false⟩ ⟨300, 0, 2⟩ ⟨.epoch, "v0", "t0"⟩,
    .request (.write ⟨.epoch, "v1", "t1"⟩ none (.putNode ⟨"http://s", .slave, none, 0⟩)),
    .request (.write ⟨.epoch, "v2", "t2"⟩ none (.putNode ⟨"http://n", .master, none, 0⟩)),
    .start ⟨"http://n", .master, none, false⟩ ⟨300, 0, 2⟩ ⟨.epoch, "v3", "t3"⟩,
    .start ⟨"http://n", .master, none, true⟩ ⟨300, 0, 2⟩ ⟨.epoch, "v4", "t4"⟩]

/-- The row of the second master is the only one, and now the first one is refused. -/
theorem single_master_takeoverRun : ∃ n, (run takeoverRun).storage.masterRows =
      [(.ofEntity ⟨.node, "http://n"⟩, .entity (.node n))] ∧
    (run takeoverRun).step
        (.start ⟨"http://m", .master, none, false⟩ ⟨300, 0, 2⟩ ⟨.epoch, "v5", "t5"⟩) =
      (.error (.masterConflict "http://n"), ⟨(run takeoverRun).storage, none⟩) := by
  have hactions : ∀ a ∈ takeoverRun, a.StartsAs .master ∧ a.ByOperators := by
    simp [takeoverRun, Action.StartsAs, Action.ByOperators]
  obtain ⟨-, hrunning, hstart⟩ := single_master hactions
  obtain ⟨sv, hsv, hurl⟩ : ∃ sv, (run takeoverRun).running = some sv ∧
      sv.replica.settings.url = "http://n" :=
    Option.map_eq_some_iff.mp (by decide +kernel)
  obtain ⟨⟨n, hrows, -⟩, -⟩ := hrunning sv hsv
  rw [hurl] at hrows
  refine ⟨n, hrows, ?_⟩
  have hne : RecordKey.ofEntity ⟨.node, "http://n"⟩ ≠ .ofEntity ⟨.node, "http://m"⟩ := by decide
  obtain ⟨n', hrow, hstep⟩ := (hstart ⟨"http://m", .master, none, false⟩ ⟨300, 0, 2⟩
    ⟨.epoch, "v5", "t5"⟩ rfl).1 rfl _ (hrows ▸ List.mem_singleton_self _) hne
  have hurl' : n'.url = "http://n" := by
    have hkey := RecordKey.ofEntity_injective (congrArg Prod.fst hrow)
    exact (congrArg EntityKey.key hkey).symm
  rw [hstep, hurl']

end Host

end RemoteConfig
