import RemoteConfig.Cluster
import RemoteConfig.Proofs.Table
/-! # Failed operations

An operation of a node that fails leaves no trace, wherever it fails: before anything was staged, or
in the commit after part of the changes has been replayed.  The node holds what it held, no storage
has another row, and nobody was sent anything. -/

namespace RemoteConfig

open Table

/-! ## Storages -/

/-- A commit that fails changes no row; at most it takes the order to fail with it. -/
theorem Storage.rows_commit_of_error {s s' : Storage} {tx : Transaction} {fault : StorageFault}
    (h : s.commit tx = (.error fault, s')) : s'.rows = s.rows := by
  unfold commit at h
  split at h
  · cases h
    rfl
  · split at h
    · cases h
    · cases h
      rfl

/-! ## Replicas -/

namespace Replica

variable {α : Type} {r : Replica} {s : Storage}

/-- If it failed, the replica and all rows are as they were. -/
def Atomic (r : Replica) (s : Storage) (out : Except Error α × Replica × Storage) : Prop :=
  ∀ e, out.1 = .error e → out.2.1 = r ∧ out.2.2.rows = s.rows

theorem atomic_refused (e : Error) : Atomic r s ((.error e : Except Error α), r, s) :=
  fun _ _ => ⟨rfl, rfl⟩

theorem atomic_ok (a : α) (r' : Replica) (s' : Storage) : Atomic r s (.ok a, r', s') := nofun

theorem rows_persist_of_error {s' : Storage} {snap : Snapshot} {d : Delta} {next : DataVersion}
    {e : Error} (h : persist s snap d next = (.error e, s')) : s'.rows = s.rows := by
  unfold persist at h
  generalize hcommit : s.commit (transaction snap d next) = out at h
  obtain ⟨_ | _, s''⟩ := out
  · cases h
    exact Storage.rows_commit_of_error hcommit
  · cases h

/-- The last thing that can fail is the commit. -/
theorem atomic_persist (snap : Snapshot) (d : Delta) (next : DataVersion) (a : α) (r' : Replica) :
    Atomic r s (match persist s snap d next with
      | (.error e, s) => (.error e, r, s)
      | (.ok (), s) => (.ok a, r', s)) := by
  generalize hpersist : persist s snap d next = out
  obtain ⟨_ | _, s'⟩ := out
  · exact fun _ _ => ⟨rfl, rows_persist_of_error hpersist⟩
  · exact atomic_ok a r' s'

theorem atomic_receive (now : Timestamp) (p : Payload) : Atomic r s (r.receive s now p) := by
  unfold receive
  dsimp only
  split
  · exact atomic_refused _
  split
  · exact atomic_ok _ _ _
  split
  · exact atomic_refused _
  · exact atomic_persist _ _ _ _ _

end Replica

/-! ## Services -/

namespace Cluster

/-- Nothing is left of an operation that led from one cluster to another. -/
structure Untouched (c c' : Cluster) : Prop where
  /-- Every node holds what it held, and last heard from the master when it did. -/
  peers : c'.peers = c.peers
  /-- No storage has another row. -/
  rows : ∀ name, (c'.storage name).rows = (c.storage name).rows
  /-- Nothing was sent. -/
  pushes : c'.pushes = c.pushes

variable {c : Cluster} {id : Nat} {p : Peer}

theorem storage_setStorage (c : Cluster) (name : String) (s : Storage) (name' : String) :
    (c.setStorage name s).storage name' = if name' = name then s else c.storage name' := by
  show ((c.storages.insert name s)[name']?).getD .empty = _
  rw [getElem?_insert_ite]
  split <;> rfl

theorem storage_put (c : Cluster) (id : Nat) (p : Peer) (s : Storage) (name : String) :
    (c.put id p s).storage name = if name = p.storage then s else c.storage name :=
  c.storage_setStorage p.storage s name

theorem peers_put (c : Cluster) (id : Nat) (p : Peer) (s : Storage) (id' : Nat) :
    (c.put id p s).peers[id']? = if id' = id then some p else c.peers[id']? :=
  getElem?_insert_ite _ _ _ _

theorem withReplica_toReplica (m : Member) : m.withReplica m.toReplica = m := by
  cases m <;> rfl

/-- A node that is put back as it was, with a storage that has the same rows. -/
theorem untouched_put (hp : c.peers[id]? = some p) {p' : Peer} (hp' : p' = p) {s : Storage}
    (hrows : s.rows = (c.storage p.storage).rows) : c.Untouched (c.put id p' s) := by
  subst hp'
  constructor
  · refine Std.ExtTreeMap.ext_getElem? fun {k} => ?_
    rw [peers_put]
    split
    · rename_i hk
      rw [hk, hp]
    · rfl
  · intro name
    rw [storage_put]
    split
    · rename_i hname
      rw [hname, hrows]
    · rfl
  · rfl

/-- What becomes of a cluster when a replica of it has failed. -/
theorem untouched_of_atomic {α : Type} {out : Except Error α × Replica × Storage} {e : Error}
    (hp : c.peers[id]? = some p)
    (hatomic : Replica.Atomic p.member.toReplica (c.storage p.storage) out)
    (he : out.1 = .error e) :
    c.Untouched (c.put id { p with member := p.member.withReplica out.2.1 } out.2.2) := by
  obtain ⟨hr, hrows⟩ := hatomic e he
  refine untouched_put hp ?_ hrows
  rw [hr, withReplica_toReplica]

/-- Asking another node may use up a failure that was ordered, and changes nothing else. -/
theorem fetch_snd (c : Cluster) (link : Link) (url path : String) :
    ∃ n, (c.fetch link url path).2 = { c with failingFetches := n } := by
  unfold fetch
  cases link with
  | http => exact ⟨_, rfl⟩
  | direct =>
      dsimp only
      split
      · exact ⟨_, rfl⟩
      · exact ⟨_, rfl⟩

theorem consult_snd (c : Cluster) (link : Link) (url : String) (held : DataVersion) :
    ∃ n, (c.consult link url held).2.2 = { c with failingFetches := n } := by
  obtain ⟨n, hfirst⟩ := c.fetch_snd link url "/api/sync/version"
  unfold consult
  generalize c.fetch link url "/api/sync/version" = out at *
  obtain ⟨_ | master, c'⟩ := out
  · exact ⟨n, hfirst⟩
  · obtain rfl : c' = { c with failingFetches := n } := hfirst
    dsimp only
    split
    · exact ⟨n, rfl⟩
    · obtain ⟨n', hsecond⟩ :=
        fetch_snd { c with failingFetches := n } link url "/api/sync/dump"
      exact ⟨n', hsecond⟩

end Cluster

end RemoteConfig
