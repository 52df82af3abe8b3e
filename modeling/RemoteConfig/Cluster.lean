import RemoteConfig.Service.Basic
/-! # Clusters

Nodes that run side by side on named storages and call each other by address.  A call reaches the
node that was started last at the address, unless the address is out of reach; what goes wrong at
the other end arrives as a remote error.  Every push that was tried is on record. -/

namespace RemoteConfig

/-- How a node reaches its peers. -/
inductive Link where
  | direct
  /-- Over the network, where none of the nodes of a cluster are found. -/
  | http
deriving DecidableEq, Repr

/-- What runs on a node. -/
inductive Member where
  | service (sv : Service)
  /-- Replication alone, without operators and clients. -/
  | replica (r : Replica)

namespace Member

def toReplica : Member → Replica
  | service sv => sv.replica
  | replica r => r

def withReplica (r : Replica) : Member → Member
  | service sv => service { sv with replica := r }
  | replica _ => replica r

def settings (m : Member) : Settings := m.toReplica.settings

def snapshot (m : Member) : Snapshot := m.toReplica.snapshot

end Member

/-- A node that was started: what runs on it, and where it keeps its rows. -/
structure Peer where
  member : Member
  storage : String
  link : Link

/-- A push that was tried, and why it failed if it did. -/
structure Push where
  url : String
  payload : Payload
  failure : Option Error

structure Cluster where
  storages : Table Storage
  /-- All nodes that were ever started, by the number of the start. -/
  peers : Std.ExtTreeMap Nat Peer compare
  /-- How many nodes were started. -/
  started : Nat
  /-- The running node of each name. -/
  names : Table Nat
  /-- The node that answers at each address. -/
  addresses : Table Nat
  /-- The addresses that are out of reach. -/
  unreachable : Keys
  /-- How many of the next requests for data will fail. -/
  failingFetches : Nat
  /-- The pushes in the order in which they were tried. -/
  pushes : List Push

namespace Cluster

def empty : Cluster := ⟨∅, ∅, 0, ∅, ∅, ∅, 0, []⟩

/-! ## Parts -/

/-- The storage of a name; one that was never used is empty. -/
def storage (c : Cluster) (name : String) : Storage := c.storages[name]?.getD .empty

def setStorage (c : Cluster) (name : String) (s : Storage) : Cluster :=
  { c with storages := c.storages.insert name s }

/-- Makes the next commit on a storage fail. -/
def failNextCommit (c : Cluster) (name : String) : Cluster :=
  c.setStorage name (c.storage name).failNextCommit

/-- The running node of a name, with its number. -/
def find? (c : Cluster) (name : String) : Option (Nat × Peer) := do
  let id ← c.names[name]?
  let p ← c.peers[id]?
  return (id, p)

/-- Puts a node and its storage into a new state. -/
def put (c : Cluster) (id : Nat) (p : Peer) (s : Storage) : Cluster :=
  { c.setStorage p.storage s with peers := c.peers.insert id p }

/-- Takes an address out of reach, and says whether it was within. -/
def cutOff (c : Cluster) (url : String) : Bool × Cluster :=
  (!c.unreachable.contains url, { c with unreachable := c.unreachable.insert url })

/-- Brings an address back into reach, and says whether it was out of it. -/
def reconnect (c : Cluster) (url : String) : Bool × Cluster :=
  (c.unreachable.contains url, { c with unreachable := c.unreachable.erase url })

/-! ## Calls -/

/-- An error as it arrives at the caller. -/
def asRemote (e : Error) : Error := .remote e.code e.message

/-- The node that answers at an address. -/
def answering (c : Cluster) (url : String) : Except Error (Nat × Peer) :=
  if c.unreachable.contains url then .error (.remote "UNREACHABLE" url)
  else match c.addresses[url]?.bind fun id => c.peers[id]?.map (id, ·) with
    | some found => .ok found
    | none => .error (.remote "UNKNOWN_PEER" url)

/-- What comes of a call over the network: an address has to be one, and then no node is found. -/
def failOverHttp (url path : String) : Error :=
  if Url.isAbsolute (Url.withPath url path) then .network "error sending request" else .invalidUrl

/-- Hands a mutation to a node. -/
def deliver (c : Cluster) (now : Timestamp) (id : Nat) (p : Peer) (payload : Payload) :
    Except Error Unit × Cluster :=
  let (result, r, s) := p.member.toReplica.receive (c.storage p.storage) now payload
  (result, c.put id { p with member := p.member.withReplica r } s)

/-- Calls the node at an address to push a mutation to it. -/
def callPush (c : Cluster) (now : Timestamp) (url : String) (payload : Payload) :
    Except Error Unit × Cluster :=
  match c.answering url with
  | .error e => (.error e, c)
  | .ok (id, p) =>
    let (result, c) := c.deliver now id p payload
    (result.mapError asRemote, c)

/-- Tries a push and puts it on record. -/
def push (c : Cluster) (now : Timestamp) (link : Link) (url : String) (payload : Payload) :
    Except Error Unit × Cluster :=
  match link with
  | .http => (.error (failOverHttp url "/api/sync/push"), c)
  | .direct =>
    let (result, c) := c.callPush now url payload
    let failure := match result with
      | .ok () => none
      | .error e => some e
    (result, { c with pushes := c.pushes ++ [⟨url, payload, failure⟩] })

/-- Tries several pushes, and lists the addresses where they failed. -/
def pushAll (c : Cluster) (now : Timestamp) (link : Link) :
    List (String × Payload) → List String × Cluster
  | [] => ([], c)
  | (url, payload) :: rest =>
    let (result, c) := c.push now link url payload
    let (failed, c) := c.pushAll now link rest
    (if result.toBool then failed else url :: failed, c)

/-- Asks the node at an address for its data. -/
def fetch (c : Cluster) (link : Link) (url path : String) : Except Error Snapshot × Cluster :=
  match link with
  | .http => (.error (failOverHttp url path), c)
  | .direct =>
    if 0 < c.failingFetches then
      (.error (.remote "FLAKY" url), { c with failingFetches := c.failingFetches - 1 })
    else ((c.answering url).map (·.2.member.snapshot), c)

/-! ## Nodes -/

/-- What to run on a node. -/
inductive Program where
  | service (limits : Limits) (link : Link)
  | replica
deriving DecidableEq, Repr

def Program.link : Program → Link
  | service _ link => link
  | replica => .direct

def Program.start (program : Program) (settings : Settings) (s : Storage) (m : Moment) :
    Except Error (Member × List (String × Payload)) × Storage :=
  match program with
  | service limits _ =>
    let (result, s) := Service.start settings limits s m
    (result.map fun (sv, pushes) => (.service sv, pushes), s)
  | replica =>
    let (result, s) := Replica.start settings s m
    (result.map fun (r, pushes) => (.replica r, pushes), s)

/-- Starts a node.  It takes over its name and its address once its first pushes are out. -/
def start (c : Cluster) (m : Moment) (name storage : String) (settings : Settings)
    (program : Program) : Except Error Member × Cluster :=
  let (result, s) := program.start settings (c.storage storage) m
  let c := c.setStorage storage s
  match result with
  | .error e => (.error e, c)
  | .ok (member, pushes) =>
    let (_, c) := c.pushAll m.now program.link pushes
    (.ok member, { c with
      peers := c.peers.insert c.started ⟨member, storage, program.link⟩
      started := c.started + 1
      names := c.names.insert name c.started
      addresses := c.addresses.insert settings.url c.started })

/-- Stops a node: its name and its address are free again, its storage stays. -/
def stop (c : Cluster) (name : String) (p : Peer) : Cluster :=
  { c with
    names := c.names.erase name
    addresses := c.addresses.erase p.member.settings.url }

/-- The outcome of a mutation: the version, and the slaves that could not be told. -/
structure Outcome where
  dataVersion : DataVersion
  failed : List String

/-- Lets the slaves know what was committed. -/
def announce (c : Cluster) (now : Timestamp) (link : Link) :
    Except Error Committed → Except Error Outcome × Cluster
  | .error e => (.error e, c)
  | .ok committed =>
    let (failed, c) := c.pushAll now link committed.pushes
    (.ok ⟨committed.dataVersion, failed⟩, c)

/-- Commits a mutation on a node. -/
def mutate (c : Cluster) (m : Moment) (id : Nat) (p : Peer) (expected : Option Int) (d : Delta) :
    Except Error Outcome × Cluster :=
  let (result, r, s) := p.member.toReplica.mutate (c.storage p.storage) m expected fun _ => .ok d
  (c.put id { p with member := p.member.withReplica r } s).announce m.now p.link result

/-- Carries out the request of an operator on a node. -/
def write (c : Cluster) (m : Moment) (id : Nat) (p : Peer) (sv : Service) (expected : Option Int)
    (w : Write) : Except Error Outcome × Cluster :=
  let (result, sv, s) := sv.write (c.storage p.storage) m expected w
  (c.put id { p with member := .service sv } s).announce m.now p.link result

/-- Answers a client of a node. -/
def get (c : Cluster) (now : Timestamp) (id : Nat) (p : Peer) (sv : Service) (ctx : Context) :
    Except Error Response × Cluster :=
  let (result, sv, s) := sv.get (c.storage p.storage) now ctx
  (result, c.put id { p with member := .service sv } s)

/-! ## Synchronisation -/

/-- Replaces the data of a node by a dump. -/
def resync (c : Cluster) (now : Timestamp) (id : Nat) (p : Peer) (d : Dump) :
    Except Error SyncOutcome × Cluster :=
  let (result, r, s) := p.member.toReplica.resync (c.storage p.storage) now d
  (result, c.put id { p with member := p.member.withReplica r } s)

/-- What the node at an address answers to one that holds a version: its own version, and if that is
another one a dump. -/
def consult (c : Cluster) (link : Link) (url : String) (held : DataVersion) :
    Except Error DataVersion × Except Error Dump × Cluster :=
  match c.fetch link url "/api/sync/version" with
  | (.error e, c) => (.error e, .error e, c)
  | (.ok master, c) =>
    if master.dataVersion = held then (.ok master.dataVersion, .ok master.dump, c)
    else
      let (answer, c) := c.fetch link url "/api/sync/dump"
      (.ok master.dataVersion, answer.map Snapshot.dump, c)

/-- One round of synchronisation: the node asks the master for its version, and for a dump if it is
at another one. -/
def sync (c : Cluster) (now : Timestamp) (id : Nat) (p : Peer) :
    Except Error SyncOutcome × Cluster :=
  match p.member.settings.masterUrl with
  | none => (.error .notPermitted, c)
  | some url =>
    let (version, dump, c) := c.consult p.link url p.member.snapshot.dataVersion
    let (result, r, s) := p.member.toReplica.sync (c.storage p.storage) now version dump
    (result, c.put id { p with member := p.member.withReplica r } s)

/-- Whether trying again cannot help. -/
def isFinal : Error → Bool
  | .notPermitted | .invalidUrl => true
  | _ => false

/-- Rounds of synchronisation until one succeeds or no further one can; nothing if all the given
number of rounds failed. -/
def syncUntilDone (now : Timestamp) (id : Nat) (p : Peer) :
    (rounds : Nat) → Cluster → Option (Except Error Unit) × Cluster
  | 0, c => (none, c)
  | rounds + 1, c =>
    match c.sync now id p with
    | (.ok _, c) => (some (.ok ()), c)
    | (.error e, c) =>
      if isFinal e then (some (.error e), c) else syncUntilDone now id p rounds c

/-- Waits for the first round of synchronisation that succeeds.  Only faults that pass are waited
out: requests that are bound to fail, and a failing commit. -/
def firstSync (c : Cluster) (now : Timestamp) (id : Nat) (p : Peer) :
    Except Error (Option (Except Error Unit)) × Cluster :=
  if p.member.settings.role ≠ .slave then (.error .notPermitted, c)
  else
    let (result, c) := syncUntilDone now id p (c.failingFetches + 2) c
    (.ok result, c)

end Cluster

end RemoteConfig
