import RemoteConfig.Store
/-! # Replicas

A replica is a node's copy of the configuration: a store in memory and the rows of a storage behind
it.  The one master commits mutations; each is written to the storage first, then taken into the
memory, then pushed to the slaves.  A slave takes a push only if it continues the chain of versions
that it has; otherwise it catches up from a dump of the master. -/

namespace RemoteConfig

/-- What an operation takes from outside: the time, and two signs that were never used before. -/
structure Moment where
  now : Timestamp
  /-- The sign of the next data version. -/
  sign : String
  /-- Any other sign that the operation needs. -/
  spare : String

/-- How a node takes part in replication. -/
structure Settings where
  url : String
  role : NodeRole
  /-- Where a slave finds the master. -/
  masterUrl : Option String
  /-- Whether a starting master may remove another one from the registry. -/
  replacesMaster : Bool

structure Replica where
  settings : Settings
  store : Store

/-- The outcome of a mutation. -/
structure Committed where
  dataVersion : DataVersion
  /-- The slaves that have to be told, and what. -/
  pushes : List (String × Payload)

/-- What a round of synchronisation did. -/
inductive SyncOutcome where
  | upToDate
  | resynced
deriving DecidableEq, Repr

namespace Replica

def snapshot (r : Replica) : Snapshot := r.store.snapshot

/-! ## Writing changes down -/

/-- The operations that write changes into a storage.  Whether a row is inserted or updated depends
on the keys that are present, as earlier changes of the list have left them. -/
def stage (present : EntityKey → Bool) : List Change → List Operation
  | [] => []
  | .upsert e :: rest =>
    (if present e.key then .update (.ofEntity e.key) (.entity e) else .insert (.entity e)) ::
      stage (fun k => k = e.key || present k) rest
  | .delete k :: rest =>
    .delete (.ofEntity k) :: stage (fun k' => k' ≠ k && present k') rest

/-- The transaction of a mutation: its changes, and the version they lead to. -/
def transaction (current : Snapshot) (d : Delta) (next : DataVersion) : Transaction :=
  ⟨stage current.contains d.changes ++ [.update .dataVersion (.dataVersion next)]⟩

/-- Writes a mutation into a storage. -/
def persist (s : Storage) (current : Snapshot) (d : Delta) (next : DataVersion) :
    Except Error Unit × Storage :=
  let (result, s) := s.commit (transaction current d next)
  (result.mapError .persistence, s)

/-- Whether a change is about the node of the given address. -/
def concerns (url : String) (c : Change) : Bool := c.key = ⟨.node, url⟩

/-- Sets the version of the node's own row where a change enters that row. -/
def stampOwn (url : String) (version : Int) : Change → Change
  | .upsert (.node n) =>
    .upsert (.node (if n.url = url then { n with dataVersion := version } else n))
  | c => c

/-- Lets the node's own row follow the version.  If the mutation touches that row, the version is
set in it; if not, and the row exists, a change of it is added. -/
def touchOwn (url : String) (current : Snapshot) (d : Delta) (next : DataVersion) : Delta :=
  if d.changes.any (concerns url) then ⟨d.changes.map (stampOwn url next.version)⟩
  else match current.node? url with
    | some n =>
      d.upsert (.node { n with dataVersion := next.version, lastCheck := some next.updatedAt })
    | none => d

/-! ## Master -/

/-- Refuses an expectation that is not the current version. -/
def checkExpected (expected : Option Int) (current : Int) : Except Error Unit :=
  match expected with
  | none => .ok ()
  | some n => if n = current then .ok () else .error (.versionConflict n current)

/-- What the slaves in a snapshot have to be sent. -/
def pushesFor (url : String) (s : Snapshot) (p : Payload) : List (String × Payload) :=
  ((s.slaves.map (·.url)).filter (· ≠ url)).map (·, p)

/-- Commits changes that are not empty. -/
def commit (r : Replica) (s : Storage) (m : Moment) (d : Delta) :
    Except Error Committed × Replica × Storage :=
  let current := r.snapshot
  let next := current.dataVersion.next m.sign m.now
  let d := touchOwn r.settings.url current d next
  match persist s current d next with
  | (.error e, s) => (.error e, r, s)
  | (.ok (), s) =>
    let r := { r with store := r.store.apply d next }
    (.ok ⟨next, pushesFor r.settings.url r.snapshot ⟨d, next⟩⟩, r, s)

/-- Commits the mutation that `build` makes of the current snapshot.  A stale expectation is
refused; an empty mutation commits nothing. -/
def mutate (r : Replica) (s : Storage) (m : Moment) (expected : Option Int)
    (build : Snapshot → Except Error Delta) : Except Error Committed × Replica × Storage :=
  let version := r.snapshot.dataVersion
  if r.settings.role ≠ .master then (.error .notPermitted, r, s)
  else match checkExpected expected version.version, build r.snapshot with
    | .error e, _ => (.error e, r, s)
    | .ok (), .error e => (.error e, r, s)
    | .ok (), .ok d => if d.isEmpty then (.ok ⟨version, []⟩, r, s) else r.commit s m d

/-- The mutation by which a master takes its place in the registry. -/
def claim (settings : Settings) (now : Timestamp) (current : Snapshot) : Except Error Delta := do
  let removal ← match current.master? with
    | some other =>
      if other.url = settings.url then .ok Delta.empty
      else if settings.replacesMaster then .ok (Delta.empty.delete ⟨.node, other.url⟩)
      else .error (.masterConflict other.url)
    | none => .ok Delta.empty
  let own : Node := ⟨settings.url, .master, some now, current.dataVersion.version⟩
  match current.node? settings.url with
  | some n =>
    if n.role = .master ∧ removal.isEmpty then .ok removal else .ok (removal.upsert (.node own))
  | none => .ok (removal.upsert (.node own))

/-- The rows with which a storage starts: the first version, and on a master its own node. -/
def initialRecords (settings : Settings) (v : DataVersion) : List Record :=
  .dataVersion v ::
    (if settings.role = .master then
      [.entity (.node ⟨settings.url, .master, some v.updatedAt, v.version⟩)]
    else [])

/-- The snapshot of a storage.  A storage that was never initialised is initialised first. -/
def open? (settings : Settings) (s : Storage) (m : Moment) : Except Error Snapshot × Storage :=
  if s.dataVersion?.isSome then (.ok s.load, s)
  else
    let initial := DataVersion.initial m.spare m.now
    let records := initialRecords settings initial
    match s.commit ⟨records.map .insert⟩ with
    | (.error fault, s) => (.error (.persistence fault), s)
    | (.ok (), s') =>
      let own := records.filterMap fun
        | .entity e => some (Change.upsert e)
        | _ => none
      (.ok { s.load.applyAll own with dataVersion := initial }, s')

/-- Starts a replica on a storage; a master then claims its place. -/
def start (settings : Settings) (s : Storage) (m : Moment) :
    Except Error (Replica × List (String × Payload)) × Storage :=
  match open? settings s m with
  | (.error e, s) => (.error e, s)
  | (.ok snapshot, s) =>
    let r : Replica := ⟨settings, .ofSnapshot snapshot⟩
    if settings.role ≠ .master then (.ok (r, []), s)
    else match r.mutate s m none (claim settings m.now) with
      | (.error e, _, s) => (.error e, s)
      | (.ok committed, r, s) => (.ok (r, committed.pushes), s)

/-! ## Slave -/

/-- Takes in a mutation that the master pushed.  The push that led to the current version may come
again. -/
def receive (r : Replica) (s : Storage) (now : Timestamp) (p : Payload) :
    Except Error Unit × Replica × Storage :=
  let current := r.snapshot
  let version := current.dataVersion
  if r.settings.role = .master then (.error .notPermitted, r, s)
  else if version = p.dataVersion then
    (.ok (), { r with store := r.store.markChecked now }, s)
  else if !version.isFollowedBy p.dataVersion then
    (.error (.versionGap version.version p.dataVersion.version), r, s)
  else
    let d := touchOwn r.settings.url current p.delta p.dataVersion
    match persist s current d p.dataVersion with
    | (.error e, s) => (.error e, r, s)
    | (.ok (), s) =>
      (.ok (), { r with store := (r.store.apply d p.dataVersion).markChecked now }, s)

/-- A dump in which the row of the receiving node is at the version of the dump. -/
def adoptOwn (url : String) (now : Timestamp) (d : Dump) : Dump :=
  { d with nodes := d.nodes.map fun n =>
    if n.url = url then { n with dataVersion := d.dataVersion.version, lastCheck := some now }
    else n }

/-- The changes that lead to a dump: what it lacks goes, and all that it has is entered. -/
def changesTo (current : Snapshot) (d : Dump) : List Change :=
  let target := Snapshot.ofDump d
  ((current.dump.entities.map Entity.key).filter fun k => !target.contains k).map .delete ++
    d.entities.map .upsert

/-- Replaces everything by a dump of the master.  A dump that is older, or the version itself, is
ignored. -/
def resync (r : Replica) (s : Storage) (now : Timestamp) (d : Dump) :
    Except Error SyncOutcome × Replica × Storage :=
  let current := r.snapshot
  let version := current.dataVersion
  if r.settings.role = .master then (.error .notPermitted, r, s)
  else if d.dataVersion.version < version.version ∨ d.dataVersion = version then
    (.ok .upToDate, { r with store := r.store.markChecked now }, s)
  else
    let d := adoptOwn r.settings.url now d
    match persist s current ⟨changesTo current d⟩ d.dataVersion with
    | (.error e, s) => (.error e, r, s)
    | (.ok (), s) =>
      (.ok .resynced, { r with store := (r.store.replace (.ofDump d)).markChecked now }, s)

/-- Notes a contact with the master. -/
def markChecked (r : Replica) (now : Timestamp) : Replica :=
  { r with store := r.store.markChecked now }

/-- One round of synchronisation, given what the master answers when it is asked for its version and
for a dump.  The dump counts only if the version is another one. -/
def sync (r : Replica) (s : Storage) (now : Timestamp) (version : Except Error DataVersion)
    (dump : Except Error Dump) : Except Error SyncOutcome × Replica × Storage :=
  if r.settings.masterUrl.isNone then (.error .notPermitted, r, s)
  else match version with
    | .error e => (.error e, r, s)
    | .ok v =>
      if v = r.snapshot.dataVersion then (.ok .upToDate, r.markChecked now, s)
      else match dump with
        | .error e => (.error e, r, s)
        | .ok d => r.resync s now d

end Replica

end RemoteConfig
