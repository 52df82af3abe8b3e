import RemoteConfig.Snapshot.Basic
import RemoteConfig.Storage.Basic
/-! # Dumps

A dump lists the entities of a snapshot, each kind in the order of the keys.  From a dump, or from
the rows of a storage, a snapshot is built by entering the entities one by one. -/

namespace RemoteConfig

structure Dump where
  dataVersion : DataVersion
  users : List User
  apps : List App
  configs : List Config
  webhooks : List Webhook
  nodes : List Node
deriving DecidableEq, Repr

namespace Dump

/-- All entities, users first and nodes last. -/
def entities (d : Dump) : List Entity :=
  d.users.map .user ++ d.apps.map .app ++ d.configs.map .config ++ d.webhooks.map .webhook ++
    d.nodes.map .node

/-- A dump without what nodes note about their own progress.  Replicas that agree have the same. -/
def withoutProgress (d : Dump) : Dump :=
  { d with nodes := d.nodes.map fun n => { n with lastCheck := none, dataVersion := 0 } }

open Json in
def toJson (d : Dump) : Json :=
  .object [("data_version", d.dataVersion.toJson), ("users", .array (d.users.map User.toJson)),
    ("apps", .array (d.apps.map App.toJson)), ("configs", .array (d.configs.map Config.toJson)),
    ("webhooks", .array (d.webhooks.map Webhook.toJson)),
    ("nodes", .array (d.nodes.map Node.toJson))]

open Json in
def read? : Reader Dump := fun place j =>
  match record? ["data_version", "users", "apps", "configs", "webhooks", "nodes"] place j with
  | some [some version, some users, some apps, some configs, some webhooks, some nodes] => do
    return ⟨← DataVersion.read? place.inner version, ← list? User.read? place.inner users,
      ← list? App.read? place.inner apps, ← list? Config.read? place.inner configs,
      ← list? Webhook.read? place.inner webhooks, ← list? Node.read? place.inner nodes⟩
  | _ => none

end Dump

namespace Snapshot

def dump (s : Snapshot) : Dump where
  dataVersion := s.dataVersion
  users := s.users.values
  apps := s.apps.values
  configs := s.configs.values.map (·.entry)
  webhooks := s.webhooks.values
  nodes := s.nodes.values

/-- The snapshot with the given entities, entered in their order. -/
def ofEntities (v : DataVersion) (entities : List Entity) : Snapshot :=
  { empty with dataVersion := v }.applyAll (entities.map .upsert)

def ofDump (d : Dump) : Snapshot := ofEntities d.dataVersion d.entities

end Snapshot

namespace Storage

/-- The entities among the rows, users first and nodes last. -/
def entities (s : Storage) : List Entity :=
  [EntityKind.user, .app, .config, .webhook, .node].flatMap fun kind =>
    (s.findAll (.entity kind)).filterMap fun
      | .entity e => some e
      | _ => none

/-- The data version of the rows, if the storage was ever initialised. -/
def dataVersion? (s : Storage) : Option DataVersion :=
  (s.findAll .dataVersion).findSome? fun
    | .dataVersion v => some v
    | _ => none

/-- The snapshot that the rows describe. -/
def load (s : Storage) : Snapshot :=
  .ofEntities (s.dataVersion?.getD .unset) s.entities

end Storage

end RemoteConfig
