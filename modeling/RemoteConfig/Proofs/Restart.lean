import RemoteConfig.Proofs.Registry
/-! # Restarts

A master that is written by operators keeps its two indexes in step change by change, while loading
rows and reading a dump build them from nothing.  Exact indexes agree in what they say; and since no
app is ever indexed with an empty set of configs, they are the same tables.  So what would be loaded
is the running snapshot itself, and a restart cannot be noticed. -/

namespace RemoteConfig

open Table

namespace Snapshot

variable {s t : Snapshot}

/-! ## Indexes without empty entries -/

/-- No app is indexed with an empty set of configs. -/
def NoneEmpty (table : Table Keys) : Prop := ∀ appKey : String, table[appKey]? ≠ some ∅

theorem NoneEmpty.insert {table : Table Keys} (h : NoneEmpty table) (appKey : String) {keys : Keys}
    (hkeys : keys ≠ ∅) : NoneEmpty (table.insert appKey keys) := by
  intro a
  rw [getElem?_insert_ite]
  split
  · exact fun hempty => hkeys (Option.some.inj hempty)
  · exact h a

theorem NoneEmpty.erase {table : Table Keys} (h : NoneEmpty table) (appKey : String) :
    NoneEmpty (table.erase appKey) := by
  intro a
  rw [getElem?_erase_ite]
  split
  · exact nofun
  · exact h a

theorem NoneEmpty.index {table : Table Keys} (h : NoneEmpty table) (appKey key : String) :
    NoneEmpty (Snapshot.index table appKey key) :=
  h.insert appKey (Std.ExtTreeSet.ne_empty_of_mem (mem_insert_set.mpr (Or.inl rfl)))

/-- An app that loses its last config leaves the index. -/
theorem NoneEmpty.unindex {table : Table Keys} (h : NoneEmpty table) (appKey key : String) :
    NoneEmpty (Snapshot.unindex table appKey key) := by
  unfold Snapshot.unindex
  split
  · exact h
  · dsimp only
    split
    · exact h.erase appKey
    · rename_i hrest
      exact h.insert appKey fun hempty => hrest (Std.ExtTreeSet.isEmpty_iff.mpr hempty)

/-- Whatever the changes, no empty set stays in the index of configs. -/
def Compact (s : Snapshot) : Prop := NoneEmpty s.appConfigKeys

theorem compact_empty : empty.Compact := by
  simp [Compact, NoneEmpty, empty]

theorem Compact.apply (h : s.Compact) (c : Change) : (s.apply c).Compact := by
  rcases c with e | ⟨kind, key⟩
  · cases e with
    | config c =>
        refine NoneEmpty.index ?_ c.appKey c.key
        split
        · split
          · exact h
          · exact NoneEmpty.unindex h _ _
        · exact h
    | _ => exact h
  · cases kind with
    | app => exact NoneEmpty.erase h key
    | config =>
        show (s.deleteConfig key).Compact
        unfold deleteConfig
        split
        · exact NoneEmpty.unindex h _ _
        · exact h
    | _ => exact h

theorem Compact.applyAll : ∀ (changes : List Change) {s : Snapshot}, s.Compact →
    (s.applyAll changes).Compact
  | [], _, h => h
  | c :: rest, s, h => by
      show ((s.apply c).applyAll rest).Compact
      exact applyAll rest (h.apply c)

theorem Compact.advance (h : s.Compact) (d : Delta) (v : DataVersion) : (s.advance d v).Compact :=
  Compact.applyAll d.changes h

theorem compact_ofEntities (v : DataVersion) (entities : List Entity) :
    (ofEntities v entities).Compact :=
  Compact.applyAll _ (s := { empty with dataVersion := v }) compact_empty

theorem compact_initial (settings : Settings) (v : DataVersion) : (initial settings v).Compact := by
  unfold initial
  split <;> exact compact_empty

/-! ## Snapshots that are determined by their entities -/

/-- Indexes that say the same are the same, if neither has an empty entry. -/
theorem Exact.appConfigKeys_eq (hs : s.Exact) (ht : t.Exact) (hcs : s.Compact) (hct : t.Compact)
    (hconfigs : s.configs = t.configs) : s.appConfigKeys = t.appConfigKeys := by
  refine Std.ExtTreeMap.ext_getElem? fun {appKey} => ?_
  have hsame := hs.configKeys_eq ht hconfigs appKey
  cases hkeys : s.appConfigKeys[appKey]? with
  | none =>
      cases hkeys' : t.appConfigKeys[appKey]? with
      | none => rfl
      | some keys' =>
          rw [hkeys, hkeys', Option.getD_none, Option.getD_some] at hsame
          exact absurd (hsame ▸ hkeys') (hct appKey)
  | some keys =>
      cases hkeys' : t.appConfigKeys[appKey]? with
      | none =>
          rw [hkeys, hkeys', Option.getD_none, Option.getD_some] at hsame
          exact absurd (hsame ▸ hkeys) (hcs appKey)
      | some keys' =>
          rw [hkeys, hkeys'] at hsame
          exact congrArg some hsame

/-- A snapshot as a master that is written by operators has it: all of it follows from the version
and the entities. -/
structure Canonical (s : Snapshot) : Prop where
  coherent : s.Coherent
  exact : s.Exact
  compact : s.Compact

theorem Canonical.eq (hs : s.Canonical) (ht : t.Canonical) (h : s.entity? = t.entity?)
    (hv : s.dataVersion = t.dataVersion) : s = t := by
  have hk := fun k => congrFun h k
  have happs : s.apps = t.apps := apps_eq fun _ => hk _
  have hconfigs : s.configs = t.configs := hs.coherent.configs_eq ht.coherent fun _ => hk _
  have hnames := hs.exact.appsByName_eq ht.exact happs
  have hkeys := hs.exact.appConfigKeys_eq ht.exact hs.compact ht.compact hconfigs
  have husers : s.users = t.users := users_eq fun _ => hk _
  have hhooks : s.webhooks = t.webhooks := webhooks_eq fun _ => hk _
  have hnodes : s.nodes = t.nodes := nodes_eq fun _ => hk _
  cases s
  cases t
  simp_all only

/-- Reading back its own dump, a snapshot finds itself. -/
theorem Canonical.ofDump_dump (hs : s.Canonical) : ofDump s.dump = s := by
  have hentities : ∀ e ∈ s.dump.entities, s.entity? e.key = some e := fun e =>
    (mem_entities_dump hs.coherent).mp
  refine Canonical.eq ⟨coherent_ofDump _, ?_, compact_ofEntities _ _⟩ hs ?_ (dataVersion_ofDump _)
  · exact exact_ofEntities hs.exact.namesUnique hentities
  · exact entity?_ofEntities_eq hs.coherent.keyed fun e => mem_entities_dump hs.coherent

end Snapshot

/-! ## Masters -/

namespace Host

variable {h : Host} {a : Action} {settings : Settings}

/-- Whatever the snapshot is that a host moves on to, it was built change by change. -/
theorem Moves.compact {pushes : List (String × Payload)} {snap : Snapshot}
    (hm : h.Moves settings a pushes snap)
    (hc : ∀ sv, h.running = some sv → sv.snapshot.Compact) : snap.Compact := by
  cases hm with
  | initialised hempty => exact Snapshot.compact_initial _ _
  | claimed hv hmutated =>
      obtain ⟨d, -, -, rfl, -⟩ := hmutated
      exact (Snapshot.compact_ofEntities _ _).advance _ _
  | served sv hsv hsettings hq =>
      have hold : sv.replica.snapshot.Compact := hc sv hsv
      cases hq with
      | mutate hmutated =>
          obtain ⟨d, -, -, rfl, -⟩ := hmutated
          exact hold.advance _ _
      | write hw hmutated =>
          obtain ⟨d, -, -, rfl, -⟩ := hmutated
          exact hold.advance _ _
      | receive hp =>
          obtain ⟨-, -, rfl⟩ := hp
          exact hold.advance _ _
      | resync hd =>
          obtain ⟨-, -, rfl⟩ := hd
          exact Snapshot.compact_ofEntities _ _
      | sync hd =>
          obtain ⟨-, -, rfl⟩ := hd
          exact Snapshot.compact_ofEntities _ _

theorem compact_step (hs : h.Synced) (hc : ∀ sv, h.running = some sv → sv.snapshot.Compact)
    (a : Action) : ∀ sv, (h.step a).2.running = some sv → sv.snapshot.Compact := by
  intro sv hsv
  have hstep := step_stepped hs a
  generalize h.step a = out at *
  cases hstep with
  | kept result h' hdata hkeyed hrunning =>
      cases hrunning sv hsv with
      | loaded hv hsnapshot =>
          rw [hsnapshot]
          exact Snapshot.compact_ofEntities _ _
      | running hsv₀ hsettings hsnapshot =>
          rw [hsnapshot]
          exact hc _ hsv₀
  | moved pushes sv' s' hmirrors hmoves =>
      obtain rfl := Option.some.inj hsv
      exact hmoves.compact hc

/-- What every step keeps, holds after any actions. -/
theorem runFrom_induction {p : Host → Prop} (hstep : ∀ h a, h.Synced → p h → p (h.step a).2) :
    ∀ (actions : List Action) (h : Host), h.Synced → p h → p (h.runFrom actions)
  | [], _, _, hp => hp
  | a :: rest, h, hs, hp => runFrom_induction hstep rest (h.step a).2 (hs.step a) (hstep h a hs hp)

theorem compact_run (actions : List Action) :
    ∀ sv, (run actions).running = some sv → sv.snapshot.Compact :=
  runFrom_induction (fun _ a hs hc => compact_step hs hc a) actions empty synced_empty not_running

theorem poolSound_run (actions : List Action) : (run actions).PoolSound :=
  runFrom_induction (fun _ a _ hp => hp.step a) actions empty synced_empty not_running

end Host

/-- A registered master has nothing to claim. -/
theorem Replica.claim_of_masterIs {settings : Settings} {s : Snapshot} (hs : s.Coherent)
    (hm : s.MasterIs settings.url) (now : Timestamp) : claim settings now s = .ok .empty := by
  obtain ⟨n, hn, hrole⟩ := (hm settings.url).mpr rfl
  obtain ⟨other, hother, hurl⟩ := hm.singleMaster.master?_eq hs ⟨n, hn, hrole⟩
  have hown : s.node? settings.url = some n := hn
  unfold claim
  simp only [hother, hurl, hown, hrole, if_true]
  rfl

/-- A registered master starts with what is stored, and commits nothing. -/
theorem Service.start_of_masterIs {settings : Settings} {s : Storage} (hv : s.dataVersion?.isSome)
    (hrole : settings.role = .master) (hm : s.load.MasterIs settings.url) (limits : Limits)
    (m : Moment) :
    start settings limits s m = (.ok (⟨⟨settings, .ofSnapshot s.load⟩, limits,
      .filled limits.idleEvaluators, .start s⟩, []), s) := by
  have hopen : Replica.open? settings s m = (.ok s.load, s) := if_pos hv
  have hclaim : Replica.claim settings m.now (Replica.snapshot ⟨settings, .ofSnapshot s.load⟩) =
      .ok .empty := Replica.claim_of_masterIs (Storage.coherent_load s) hm m.now
  unfold start Replica.start
  rw [hopen]
  simp only [hrole, ne_eq, not_true_eq_false, if_false, Replica.mutate, Replica.checkExpected,
    hclaim]
  rfl

namespace Host

/-- A restart cannot be noticed.  The snapshot of a master that is written by operators is the one
that would be loaded from its storage, and the one that its dump describes, with all derived
indexes; so all three answer every query alike.  A master that is started again at the same address
commits nothing, and resolves the same fields for every client. -/
theorem restart_invisible {actions : List Action}
    (hactions : ∀ a ∈ actions, a.StartsAs .master ∧ a.ByOperators) {sv : Service}
    (hsv : (run actions).running = some sv) :
    (run actions).storage.load = sv.snapshot ∧
    Snapshot.ofDump sv.snapshot.dump = sv.snapshot ∧
    ∀ settings limits m, settings.role = .master → settings.url = sv.replica.settings.url →
      ∃ sv', Service.start settings limits (run actions).storage m =
          (.ok (sv', []), (run actions).storage) ∧
        sv'.snapshot = sv.snapshot ∧
        ∀ ctx levels key, (sv'.resolve ctx levels key).1 = (sv.resolve ctx levels key).1 := by
  obtain ⟨hu, ho⟩ := invariant_singleMaster.run hactions fun _ _ _ _ => trivial
  have hmirrors := ho.synced.mirrors sv hsv
  have hv : (run actions).storage.dataVersion?.isSome := by
    rw [hmirrors.dataVersion?_eq]
    rfl
  have hlive : sv.snapshot.Canonical :=
    ⟨hmirrors.coherent, ho.exact _ (Or.inr ⟨sv, hsv, rfl⟩),
      compact_run actions sv hsv⟩
  have hstored : (run actions).storage.load.Canonical :=
    ⟨Storage.coherent_load _, ho.exact _ (Or.inl ⟨hv, rfl⟩), Snapshot.compact_ofEntities _ _⟩
  have hload := hstored.eq hlive hmirrors.entity?_load hmirrors.dataVersion_load
  refine ⟨hload, hlive.ofDump_dump, ?_⟩
  intro settings limits m hrole hurl
  have hmaster : (run actions).storage.load.MasterIs settings.url := by
    rw [hload, hurl]
    exact hu.running sv hsv
  refine ⟨_, Service.start_of_masterIs hv hrole hmaster limits m, hload, ?_⟩
  intro ctx levels key
  refine Service.resolve_eq (Pool.sound_filled _) (poolSound_run actions sv hsv) (.refl ctx) ?_
  exact hload ▸ Snapshot.sameTree_of_eq (fun _ => rfl) (fun _ => rfl) levels key

/-- A master that enters an app with a config, fails to enter an account, gives the app another
name, and removes the config. -/
def renamingRun : List Action :=
  [.start ⟨"http://m", .master, none, false⟩ ⟨300, 0, 2⟩ ⟨.epoch, "v0", "t0"⟩,
    .request (.write ⟨.epoch, "v1", "t1"⟩ none (.putApp "A" "app" .real)),
    .request (.write ⟨.epoch, "v2", "t2"⟩ none (.putConfig ⟨"c", "A", "f", "x", .string, .active⟩)),
    .failNextCommit,
    .request (.write ⟨.epoch, "v3", "t3"⟩ none (.putUser ⟨"u", "p", .normal⟩)),
    .request (.write ⟨.epoch, "v4", "t4"⟩ none (.putApp "A" "name" .template)),
    .request (.write ⟨.epoch, "v5", "t5"⟩ none (.deleteConfig "c"))]

/-- The new name is found after a restart, and the version is that of the last change. -/
theorem restart_invisible_renamingRun : ∃ sv sv', (run renamingRun).running = some sv ∧
    Service.start ⟨"http://m", .master, none, false⟩ ⟨300, 0, 2⟩ (run renamingRun).storage
      ⟨.epoch, "v6", "t6"⟩ = (.ok (sv', []), (run renamingRun).storage) ∧
    sv'.snapshot = sv.snapshot ∧ sv'.snapshot.findApp? "name" = sv.snapshot.app? "A" ∧
    sv'.snapshot.dataVersion = ⟨4, "v5", "v4", .epoch⟩ := by
  let sv := (run renamingRun).running.get (by decide +kernel)
  have hsv : (run renamingRun).running = some sv := (Option.some_get _).symm
  have hactions : ∀ a ∈ renamingRun, a.StartsAs .master ∧ a.ByOperators := by
    simp [renamingRun, Action.StartsAs, Action.ByOperators]
  obtain ⟨sv', hstart, hsame, -⟩ := (restart_invisible hactions hsv).2.2
    ⟨"http://m", .master, none, false⟩ ⟨300, 0, 2⟩ ⟨.epoch, "v6", "t6"⟩ rfl (by decide +kernel)
  refine ⟨sv, sv', hsv, hstart, hsame, ?_, ?_⟩
  · rw [hsame]
    decide +kernel
  · rw [hsame]
    decide +kernel

end Host

end RemoteConfig
