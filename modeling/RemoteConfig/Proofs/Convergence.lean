import RemoteConfig.Proofs.Network
/-! # Rounds of synchronisation

A slave that reaches the master is level with it after one round, whatever it has missed and
whatever else it holds: pushes that were lost, nodes and apps that the master has never heard of, or
another history that has led to the same version number.  Only a slave that is ahead stays where it
is. -/

namespace RemoteConfig

open Table

namespace Replica

variable {r : Replica} {s : Storage} {master : Snapshot}

/-- The replica is at the version of the master, or ahead of it. -/
def Current (r : Replica) (master : Snapshot) : Prop :=
  master.dataVersion = r.snapshot.dataVersion ∨
    master.dataVersion.version < r.snapshot.dataVersion.version

/-- A round leaves a replica that is current as it is, but for the stamp. -/
theorem sync_of_current (h : r.Current master) (hrole : r.settings.role = .slave)
    (hurl : r.settings.masterUrl.isSome) (s : Storage) (now : Timestamp) :
    r.sync s now (.ok master.dataVersion) (.ok master.dump) =
      (.ok .upToDate, r.markChecked now, s) := by
  have hmaster : ¬ r.settings.masterUrl.isNone = true := by simp [← Option.not_isSome, hurl]
  have hslave : ¬ r.settings.role = .master := by simp [hrole]
  rw [sync, if_neg hmaster]
  by_cases hsame : master.dataVersion = r.snapshot.dataVersion
  · exact if_pos hsame
  · refine (if_neg hsame).trans ?_
    show r.resync s now master.dump = _
    rw [resync, if_neg hslave]
    exact if_pos (Or.inl (h.resolve_left hsame))

/-- Any other replica takes over what the master holds, if the commit does not fail. -/
theorem sync_of_not_current (h : ¬ r.Current master) (hs : s.Mirrors r.snapshot)
    (hfail : s.failsNext = false) (hrole : r.settings.role = .slave)
    (hurl : r.settings.masterUrl.isSome) (now : Timestamp) :
    ∃ r' s', r.sync s now (.ok master.dataVersion) (.ok master.dump) = (.ok .resynced, r', s') ∧
      r'.settings = r.settings ∧ r'.store.checkedMillis = now.millis ∧ s'.Mirrors r'.snapshot ∧
      r'.snapshot = .ofDump (adoptOwn r.settings.url now master.dump) := by
  obtain ⟨hne, hnewer⟩ := not_or.mp h
  have hmaster : ¬ r.settings.masterUrl.isNone = true := by simp [← Option.not_isSome, hurl]
  have hslave : ¬ r.settings.role = .master := by simp [hrole]
  have hold : ¬ (master.dump.dataVersion.version < r.snapshot.dataVersion.version ∨
      master.dump.dataVersion = r.snapshot.dataVersion) := not_or.mpr ⟨hnewer, hne⟩
  have hsync : r.sync s now (.ok master.dataVersion) (.ok master.dump) =
      r.resync s now master.dump := by
    rw [sync, if_neg hmaster]
    exact if_neg hne
  rw [hsync, resync, if_neg hslave, if_neg hold]
  dsimp only
  generalize adoptOwn r.settings.url now master.dump = d
  rcases persist_cases hs ⟨changesTo r.snapshot d⟩ d.dataVersion with ⟨hfails, -⟩ | ⟨s', hp, hm⟩
  · simp [hfail] at hfails
  · rw [hp]
    exact ⟨_, s', rfl, rfl, rfl, mirrors_ofDump hs.coherent hm, rfl⟩

end Replica

namespace Cluster

variable {c : Cluster} {id id₀ : Nat} {p p₀ : Peer} {url : String}

/-! ## Asking -/

/-- A node that is in reach answers with what it holds. -/
theorem consult_of_answering (hfetches : c.failingFetches = 0)
    (hmaster : c.answering url = .ok (id₀, p₀)) (held : DataVersion) :
    c.consult .direct url held =
      (.ok p₀.member.snapshot.dataVersion, .ok p₀.member.snapshot.dump, c) := by
  have hfetch : ∀ path, c.fetch .direct url path = (.ok p₀.member.snapshot, c) := by
    intro path
    simp [fetch, hfetches, hmaster, Except.map]
  unfold consult
  rw [hfetch]
  dsimp only
  split
  · rfl
  · rw [hfetch]
    rfl

/-- A round with a node that is in reach is one with what that node holds. -/
theorem sync_of_answering (hurl : p.member.settings.masterUrl = some url) (hlink : p.link = .direct)
    (hfetches : c.failingFetches = 0) (hmaster : c.answering url = .ok (id₀, p₀)) (now : Timestamp)
    {outcome : SyncOutcome} {r : Replica} {s : Storage}
    (h : p.member.toReplica.sync (c.storage p.storage) now
      (.ok p₀.member.snapshot.dataVersion) (.ok p₀.member.snapshot.dump) = (.ok outcome, r, s)) :
    c.sync now id p =
      (.ok outcome, c.put id { p with member := p.member.withReplica r } s) := by
  unfold sync
  rw [hurl, hlink]
  dsimp only
  rw [consult_of_answering hfetches hmaster]
  dsimp only
  rw [h]

/-! ## Rounds -/

/-- What a round with a node that holds `master` makes of a node, and of its storage. -/
structure Converges (c : Cluster) (now : Timestamp) (id : Nat) (p : Peer) (master : Snapshot)
    (outcome : SyncOutcome) (r : Replica) (s : Storage) : Prop where
  synced : c.sync now id p =
    (.ok outcome, c.put id { p with member := p.member.withReplica r } s)
  stamped : r.store.checkedMillis = now.millis
  /-- Unless it was ahead, the node is level with the master, also after a restart. -/
  level : p.member.snapshot.dataVersion.version ≤ master.dataVersion.version →
    r.snapshot.dataVersion = master.dataVersion ∧
    r.snapshot.dump.withoutProgress = master.dump.withoutProgress ∧
    s.load.dump.withoutProgress = master.dump.withoutProgress
  ahead : master.dataVersion.version < p.member.snapshot.dataVersion.version →
    outcome = .upToDate ∧ r = p.member.toReplica.markChecked now ∧ s = c.storage p.storage
  /-- A second round finds nothing to do. -/
  again : ∀ now', (c.put id { p with member := p.member.withReplica r } s).sync now' id
      { p with member := p.member.withReplica r } =
    (.ok .upToDate, (c.put id { p with member := p.member.withReplica r } s).put id
      { p with member := p.member.withReplica (r.markChecked now') } s)

section Rounds

variable (hrole : p.member.settings.role = .slave) (hurl : p.member.settings.masterUrl = some url)
  (hlink : p.link = .direct) (hfetches : c.failingFetches = 0)
  (hmaster : c.answering url = .ok (id₀, p₀))
include hrole hurl hlink hfetches hmaster

/-- A round leaves a node that is current as it is, but for the stamp. -/
theorem sync_of_current (hcurrent : p.member.toReplica.Current p₀.member.snapshot)
    (now : Timestamp) (id : Nat) : c.sync now id p =
      (.ok .upToDate, c.put id
        { p with member := p.member.withReplica (p.member.toReplica.markChecked now) }
        (c.storage p.storage)) := by
  have hsome : p.member.toReplica.settings.masterUrl.isSome := Option.isSome_of_eq_some hurl
  exact sync_of_answering hurl hlink hfetches hmaster now
    (Replica.sync_of_current hcurrent hrole hsome (c.storage p.storage) now)

/-- After a round that has made the node current, another one finds nothing to do. -/
theorem sync_again (r : Replica) (hsettings : r.settings = p.member.settings)
    (hcurrent : r.Current p₀.member.snapshot) (s : Storage) (now' : Timestamp) :
    (c.put id { p with member := p.member.withReplica r } s).sync now' id
        { p with member := p.member.withReplica r } =
      (.ok .upToDate, (c.put id { p with member := p.member.withReplica r } s).put id
        { p with member := p.member.withReplica (r.markChecked now') } s) := by
  have hreplica : (p.member.withReplica r).toReplica = r := Member.toReplica_withReplica _ _
  have hkept : (p.member.withReplica r).settings = p.member.settings := by
    rw [Member.settings, hreplica, hsettings]
  -- the node may be its own master, and then it is asked for what it holds itself
  have hcurrent' : (p.member.withReplica r).toReplica.Current
      (if id₀ = id then { p with member := p.member.withReplica r } else p₀).member.snapshot := by
    rw [hreplica]
    split
    · left
      rw [Member.snapshot, hreplica]
    · exact hcurrent
  have hstorage :
      (c.put id { p with member := p.member.withReplica r } s).storage p.storage = s := by
    rw [storage_put, if_pos rfl]
  have hround := sync_of_current (c := c.put id { p with member := p.member.withReplica r } s)
    (p := { p with member := p.member.withReplica r }) (hkept ▸ hrole) (hkept ▸ hurl) hlink
    hfetches (answering_put hmaster id _ s) hcurrent' now' id
  rw [hreplica, Member.withReplica_withReplica, hstorage] at hround
  exact hround

end Rounds

section

variable {events : List Event} {past : List Cluster}

/-- In any reachable state, a round of synchronisation makes a slave level with the master, unless
it is ahead. -/
theorem sync_converges (hrun : Run events past c)
    (hfresh : (events.flatMap Event.tokens).Nodup) (hlive : c.Live id)
    (hp : c.peers[id]? = some p) (hrole : p.member.settings.role = .slave)
    (hurl : p.member.settings.masterUrl = some url) (hlink : p.link = .direct)
    (hfetches : c.failingFetches = 0) (hmaster : c.answering url = .ok (id₀, p₀))
    (hcommit : (c.storage p.storage).failsNext = false) (now : Timestamp) :
    ∃ outcome r s, c.Converges now id p p₀.member.snapshot outcome r s := by
  obtain ⟨L, -, hc, -⟩ := hrun.consistent hfresh
  have hmirrors := hc.mirrors id p hlive hp
  obtain ⟨hcoherent, hrecords⟩ := hc.held id p hp
  obtain ⟨hcoherent₀, hrecords₀⟩ := hc.held id₀ p₀ (answering_eq_ok.mp hmaster).2.2
  by_cases hcurrent : p.member.toReplica.Current p₀.member.snapshot
  · refine ⟨.upToDate, p.member.toReplica.markChecked now, c.storage p.storage, ?_⟩
    constructor
    case synced => exact sync_of_current hrole hurl hlink hfetches hmaster hcurrent now id
    case stamped => rfl
    case level =>
      -- at the same version, both hold what the ledger has under its sign
      intro hle
      have hsame := hcurrent.resolve_right (Int.not_lt.mpr hle)
      have hdump := hrecords.dump_eq hrecords₀ hcoherent hcoherent₀ hsame.symm
      exact ⟨hsame.symm, hdump, hmirrors.dump_load ▸ hdump⟩
    case ahead => exact fun _ => ⟨rfl, rfl, rfl⟩
    case again =>
      exact sync_again hrole hurl hlink hfetches hmaster (p.member.toReplica.markChecked now) rfl
        hcurrent (c.storage p.storage)
  · have hsome : p.member.toReplica.settings.masterUrl.isSome := Option.isSome_of_eq_some hurl
    obtain ⟨r, s, hsync, hsettings, hstamp, hs, hsnapshot⟩ :=
      Replica.sync_of_not_current hcurrent hmirrors hcommit hrole hsome now
    have hversion : r.snapshot.dataVersion = p₀.member.snapshot.dataVersion := by
      rw [hsnapshot, Snapshot.dataVersion_ofDump]
      rfl
    refine ⟨.resynced, r, s, ?_⟩
    constructor
    case synced => exact sync_of_answering hurl hlink hfetches hmaster now hsync
    case stamped => exact hstamp
    case level =>
      intro _
      have hdump : r.snapshot.dump.withoutProgress = p₀.member.snapshot.dump.withoutProgress := by
        refine Snapshot.dump_withoutProgress_eq hs.coherent hcoherent₀ ?_ hversion
        rw [hsnapshot]
        exact Snapshot.withoutProgress_ofDump_adoptOwn hcoherent₀ _ _
      exact ⟨hversion, hdump, hs.dump_load ▸ hdump⟩
    case ahead => exact fun hlt => absurd (Or.inr hlt) hcurrent
    case again =>
      exact sync_again hrole hurl hlink hfetches hmaster r hsettings (Or.inl hversion.symm) s

end

/-- A node that was once a master with an account of its own is started anew as the slave of another
one, which has another account and is at the same version number. -/
def conversion : List Event :=
  [.start ⟨.epoch, "v0", "t0"⟩ "s" "sdisk" ⟨"http://s", .master, none, false⟩ .replica,
    .mutate 0 ⟨.epoch, "v1", "t1"⟩ none ⟨[.upsert (.user ⟨"x", "p", .normal⟩)]⟩,
    .stop "s",
    .start ⟨.epoch, "v2", "t2"⟩ "m" "mdisk" ⟨"http://m", .master, none, false⟩ .replica,
    .mutate 1 ⟨.epoch, "v3", "t3"⟩ none ⟨[.upsert (.user ⟨"u", "p", .normal⟩)]⟩,
    .start ⟨.epoch, "v4", "t4"⟩ "s" "sdisk" ⟨"http://s", .slave, some "http://m", false⟩ .replica]

def converted : Cluster := conversion.foldl step empty

theorem run_conversion : ∃ past, Run conversion past converted := by
  refine ⟨_, ((((((Run.empty.step _ ?_).step _ ?_).step _ ?_).step _ ?_).step _ ?_).step _ ?_)⟩
  · show Idle _ "sdisk"
    decide +kernel
  · show Live _ 0
    decide +kernel
  · exact trivial
  · show Idle _ "mdisk"
    decide +kernel
  · show Live _ 1
    decide +kernel
  · show Idle _ "sdisk"
    decide +kernel

/-- The slave gives up its own history. -/
theorem sync_converges_converted : ∃ (p p₀ : Peer) (outcome : SyncOutcome) (r : Replica)
    (s : Storage), converted.peers[2]? = some p ∧ converted.peers[1]? = some p₀ ∧
    p.member.snapshot.dataVersion.version = p₀.member.snapshot.dataVersion.version ∧
    p.member.snapshot.dump.users = [⟨"x", "p", .normal⟩] ∧
    converted.Converges .epoch 2 p p₀.member.snapshot outcome r s ∧
    r.snapshot.dump.users = [⟨"u", "p", .normal⟩] ∧ s.load.dump.users = [⟨"u", "p", .normal⟩] := by
  let p := converted.peers[2]?.get (by decide +kernel)
  let p₀ := converted.peers[1]?.get (by decide +kernel)
  have hp : converted.peers[2]? = some p := (Option.some_get _).symm
  have hp₀ : converted.peers[1]? = some p₀ := (Option.some_get _).symm
  have hurl : p.member.settings.masterUrl = some "http://m" := by decide +kernel
  have hmaster : converted.answering "http://m" = .ok (1, p₀) :=
    answering_eq_ok.mpr ⟨by decide +kernel, by decide +kernel, hp₀⟩
  have hversion : p.member.snapshot.dataVersion.version =
      p₀.member.snapshot.dataVersion.version := by decide +kernel
  have husers : p₀.member.snapshot.dump.users = [⟨"u", "p", .normal⟩] := by decide +kernel
  obtain ⟨past, hrun⟩ := run_conversion
  obtain ⟨outcome, r, s, hr⟩ := sync_converges hrun (by decide +kernel) (by decide +kernel) hp
    (by decide +kernel) hurl (by decide +kernel) (by decide +kernel) hmaster (by decide +kernel)
    .epoch
  obtain ⟨-, hdump, hload⟩ := hr.level (Int.le_of_eq hversion)
  refine ⟨p, p₀, outcome, r, s, hp, hp₀, hversion, by decide +kernel, hr, ?_, ?_⟩
  · exact (congrArg Dump.users hdump).trans husers
  · exact (congrArg Dump.users hload).trans husers

end Cluster

end RemoteConfig
