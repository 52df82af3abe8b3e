import RemoteConfig.Proofs.Serial
/-! # Shared storages

A replica and a recorder share a storage, and neither touches the rows of the other.  What a replica
writes are entities and the data version, each under its own key: its transactions spare the values
of client attributes, however they end. -/

namespace RemoteConfig

open Table

/-! ## Rows of other kinds -/

namespace Operation

/-- The row that an operation is about. -/
def key : Operation → RecordKey
  | insert r => r.uniqueKey
  | update key _ => key
  | delete key => key

theorem getElem?_run {op : Operation} {rows rows' : Rows} {key : RecordKey} (hkey : key ≠ op.key)
    (h : op.run rows = .ok rows') : rows'[key]? = rows[key]? := by
  cases op with
  | insert r =>
      rw [run] at h
      split at h
      · cases h
      · cases h
        rw [getElem?_insert_ite]
        exact if_neg hkey
  | update key' r =>
      rw [run] at h
      split at h
      · cases h
        rw [getElem?_insert_ite]
        exact if_neg hkey
      · cases h
  | delete key' =>
      cases h
      rw [getElem?_erase_ite]
      exact if_neg hkey

/-- Operations have no effect on rows that none of them is about. -/
theorem getElem?_runAll {key : RecordKey} {operations : List Operation}
    (hkeys : ∀ op ∈ operations, key ≠ op.key) {rows rows' : Rows}
    (h : runAll rows operations = .ok rows') : rows'[key]? = rows[key]? := by
  induction operations generalizing rows with
  | nil =>
      cases h
      rfl
  | cons op operations ih =>
      rw [runAll] at h
      cases hop : op.run rows with
      | error fault =>
          rw [hop] at h
          cases h
      | ok next =>
          rw [hop] at h
          rw [ih (fun op' hmem => hkeys op' (List.mem_cons_of_mem _ hmem)) h]
          exact getElem?_run (hkeys op List.mem_cons_self) hop

/-- An operation that is about no attribute value, and leaves a row under its key. -/
structure Replicating (op : Operation) : Prop where
  kind : op.key.kind ≠ .clientAttribute
  keyed : ∀ key r, op = .update key r → r.uniqueKey = key

end Operation

namespace Storage

variable {s s' s'' : Storage}

theorem failsNext_commit (s : Storage) (tx : Transaction) : (s.commit tx).2.failsNext = false := by
  unfold commit
  cases hfail : s.failsNext with
  | true => rfl
  | false =>
      simp only [Bool.false_eq_true, if_false]
      split
      · rfl
      · exact hfail

/-- What was done to the first storage to get the second is no business of the attribute values. -/
structure SparesAttributes (s s' : Storage) : Prop where
  attributes : ∀ key : RecordKey, key.kind = .clientAttribute → s'.rows[key]? = s.rows[key]?
  keyed : s.rows.WellKeyed → s'.rows.WellKeyed
  calm : s.failsNext = false → s'.failsNext = false

theorem SparesAttributes.refl (s : Storage) : s.SparesAttributes s := ⟨fun _ _ => rfl, id, id⟩

theorem SparesAttributes.trans (h : s.SparesAttributes s') (h' : s'.SparesAttributes s'') :
    s.SparesAttributes s'' :=
  ⟨fun key hkey => (h'.attributes key hkey).trans (h.attributes key hkey), h'.keyed ∘ h.keyed,
    h'.calm ∘ h.calm⟩

theorem sparesAttributes_commit {tx : Transaction} (h : ∀ op ∈ tx.operations, op.Replicating) :
    s.SparesAttributes (s.commit tx).2 := by
  by_cases hok : (s.commit tx).1 = .ok ()
  · have hrun := runAll_of_commit hok
    refine ⟨?_, ?_, fun _ => s.failsNext_commit tx⟩
    · rintro key hkey
      exact Operation.getElem?_runAll (fun op hop heq => (h op hop).kind (heq ▸ hkey)) hrun
    · intro hk
      exact Operation.wellKeyed_runAll (fun key r hop => (h _ hop).keyed key r rfl) hk hrun
  · have hrows := rows_commit_of_failed hok
    exact ⟨fun key _ => by rw [hrows], fun hk => hrows ▸ hk, fun _ => s.failsNext_commit tx⟩

end Storage

/-! ## What a replica writes -/

namespace Replica

variable (r : Replica) (s : Storage)

theorem replicating_stage (changes : List Change) : ∀ (present : EntityKey → Bool),
    ∀ op ∈ stage present changes, op.Replicating := by
  induction changes with
  | nil => exact fun _ _ h => nomatch h
  | cons c rest ih =>
      intro present op hop
      cases c with
      | upsert e =>
          rcases List.mem_cons.mp hop with rfl | hop
          · split
            · exact ⟨nofun, fun _ _ heq => by cases heq; rfl⟩
            · exact ⟨nofun, nofun⟩
          · exact ih _ op hop
      | delete k =>
          rcases List.mem_cons.mp hop with rfl | hop
          · exact ⟨nofun, nofun⟩
          · exact ih _ op hop

theorem sparesAttributes_persist (current : Snapshot) (d : Delta) (next : DataVersion) :
    s.SparesAttributes (persist s current d next).2 := by
  refine Storage.sparesAttributes_commit fun op hop => ?_
  rcases List.mem_append.mp hop with hop | hop
  · exact replicating_stage _ _ op hop
  · obtain rfl := List.mem_singleton.mp hop
    exact ⟨nofun, fun _ _ heq => by cases heq; rfl⟩

theorem sparesAttributes_mutate (m : Moment) (expected : Option Int)
    (build : Snapshot → Except Error Delta) :
    s.SparesAttributes (r.mutate s m expected build).2.2 := by
  have hcommit : ∀ d, s.SparesAttributes (r.commit s m d).2.2 := by
    intro d
    have hpersist := sparesAttributes_persist s r.snapshot
      (touchOwn r.settings.url r.snapshot d (r.snapshot.dataVersion.next m.sign m.now))
      (r.snapshot.dataVersion.next m.sign m.now)
    unfold commit
    dsimp only
    split
    · rwa [‹persist _ _ _ _ = _›] at hpersist
    · rwa [‹persist _ _ _ _ = _›] at hpersist
  unfold mutate
  dsimp only
  split
  · exact .refl s
  · split
    · exact .refl s
    · exact .refl s
    · split
      · exact .refl s
      · exact hcommit _

theorem sparesAttributes_receive (now : Timestamp) (p : Payload) :
    s.SparesAttributes (r.receive s now p).2.2 := by
  have hpersist := sparesAttributes_persist s r.snapshot
    (touchOwn r.settings.url r.snapshot p.delta p.dataVersion) p.dataVersion
  unfold receive
  dsimp only
  split_ifs
  · exact .refl s
  · exact .refl s
  · exact .refl s
  · split
    · rwa [‹persist _ _ _ _ = _›] at hpersist
    · rwa [‹persist _ _ _ _ = _›] at hpersist

theorem sparesAttributes_resync (now : Timestamp) (d : Dump) :
    s.SparesAttributes (r.resync s now d).2.2 := by
  have hpersist := sparesAttributes_persist s r.snapshot
    ⟨changesTo r.snapshot (adoptOwn r.settings.url now d)⟩
    (adoptOwn r.settings.url now d).dataVersion
  unfold resync
  dsimp only
  split_ifs
  · exact .refl s
  · exact .refl s
  · split
    · rwa [‹persist _ _ _ _ = _›] at hpersist
    · rwa [‹persist _ _ _ _ = _›] at hpersist

theorem sparesAttributes_sync (now : Timestamp) (version : Except Error DataVersion)
    (dump : Except Error Dump) : s.SparesAttributes (r.sync s now version dump).2.2 := by
  unfold sync
  split
  · exact .refl s
  · split
    · exact .refl s
    · split
      · exact .refl s
      · split
        · exact .refl s
        · exact sparesAttributes_resync r s now _

theorem replicating_initialRecords (settings : Settings) (v : DataVersion) :
    ∀ op ∈ (initialRecords settings v).map Operation.insert, op.Replicating := by
  intro op hop
  obtain ⟨r, hr, rfl⟩ := List.mem_map.mp hop
  have hkind : r.uniqueKey.kind ≠ .clientAttribute := by
    rw [initialRecords, List.mem_cons] at hr
    rcases hr with rfl | hr
    · simp [Record.uniqueKey, RecordKey.dataVersion]
    · by_cases hrole : settings.role = .master
      · rw [if_pos hrole, List.mem_singleton] at hr
        subst hr
        simp [Record.uniqueKey, RecordKey.ofEntity]
      · rw [if_neg hrole] at hr
        exact absurd hr List.not_mem_nil
  exact ⟨hkind, fun _ _ heq => by cases heq⟩

theorem sparesAttributes_open? (settings : Settings) (m : Moment) :
    s.SparesAttributes (open? settings s m).2 := by
  have hcommit : s.SparesAttributes
      (s.commit ⟨(initialRecords settings (.initial m.spare m.now)).map .insert⟩).2 :=
    Storage.sparesAttributes_commit (replicating_initialRecords settings _)
  unfold open?
  by_cases hversion : s.dataVersion?.isSome = true
  · rw [if_pos hversion]
    exact .refl s
  · rw [if_neg hversion]
    dsimp only
    generalize s.commit _ = out at *
    obtain ⟨result, s'⟩ := out
    cases result with
    | error fault => exact hcommit
    | ok _ => exact hcommit

theorem sparesAttributes_start (settings : Settings) (m : Moment) :
    s.SparesAttributes (start settings s m).2 := by
  have hopen := sparesAttributes_open? s settings m
  unfold start
  split
  · rwa [‹open? _ _ _ = _›] at hopen
  · rename_i snapshot s₁ heq
    rw [heq] at hopen
    have hmutate := hopen.trans (sparesAttributes_mutate ⟨settings, .ofSnapshot snapshot⟩ s₁ m none
      (claim settings m.now))
    dsimp only
    split
    · exact hopen
    · split
      · rwa [‹mutate _ _ _ _ _ = _›] at hmutate
      · rwa [‹mutate _ _ _ _ _ = _›] at hmutate

end Replica

/-- What a replica can be asked to do on its storage. -/
inductive Replication where
  | start (settings : Settings) (m : Moment)
  | mutate (m : Moment) (expected : Option Int) (build : Snapshot → Except Error Delta)
  | receive (now : Timestamp) (p : Payload)
  | resync (now : Timestamp) (d : Dump)
  | sync (now : Timestamp) (version : Except Error DataVersion) (dump : Except Error Dump)

namespace Replication

/-- A start ends the replica that was there; without a replica all else has no effect. -/
def run (op : Replication) (r : Option Replica) (s : Storage) : Option Replica × Storage :=
  match op, r with
  | start settings m, _ =>
    match Replica.start settings s m with
    | (.ok (r, _), s) => (some r, s)
    | (.error _, s) => (none, s)
  | _, none => (none, s)
  | mutate m expected build, some r =>
    let (_, r, s) := r.mutate s m expected build
    (some r, s)
  | receive now p, some r =>
    let (_, r, s) := r.receive s now p
    (some r, s)
  | resync now d, some r =>
    let (_, r, s) := r.resync s now d
    (some r, s)
  | sync now version dump, some r =>
    let (_, r, s) := r.sync s now version dump
    (some r, s)

/-- Replicas and recorders share a storage without getting in each other's way. -/
theorem sparesAttributes_run (op : Replication) (r : Option Replica) (s : Storage) :
    s.SparesAttributes (op.run r s).2 := by
  cases op with
  | start settings m =>
      have hstart := Replica.sparesAttributes_start s settings m
      simp only [run]
      split
      · rwa [‹Replica.start _ _ _ = _›] at hstart
      · rwa [‹Replica.start _ _ _ = _›] at hstart
  | mutate m expected build =>
      cases r with
      | none => exact .refl s
      | some r => exact r.sparesAttributes_mutate s m expected build
  | receive now p =>
      cases r with
      | none => exact .refl s
      | some r => exact r.sparesAttributes_receive s now p
  | resync now d =>
      cases r with
      | none => exact .refl s
      | some r => exact r.sparesAttributes_resync s now d
  | sync now version dump =>
      cases r with
      | none => exact .refl s
      | some r => exact r.sparesAttributes_sync s now version dump

end Replication

end RemoteConfig
