import RemoteConfig.Entity.Change
import RemoteConfig.Json.Parser
import RemoteConfig.Json.Printer
/-! # Entities in JSON

The forms in which nodes exchange entities, changes and versions.  A record has its fields in a
fixed order; an entity is tagged with its kind; a change is tagged with its operation, among its own
fields. -/

namespace RemoteConfig

open Json

/-- The names of alternatives with what they stand for, and the way back. -/
def nameOf {α : Type} [DecidableEq α] (options : List (String × α)) (x : α) : Json :=
  match options.find? fun option => option.2 = x with
  | some (name, _) => .string name
  | none => .null

namespace ValueType

def names : List (String × ValueType) :=
  [("string", string), ("int", int), ("float", float), ("code", code), ("template", template)]

def toJson (t : ValueType) : Json := nameOf names t

def read? : Reader ValueType := alternative? names

end ValueType

namespace Status

def names : List (String × Status) := [("active", active), ("inactive", inactive)]

def toJson (s : Status) : Json := nameOf names s

def read? : Reader Status := alternative? names

end Status

namespace AppType

def names : List (String × AppType) := [("real", real), ("template", template)]

def toJson (t : AppType) : Json := nameOf names t

def read? : Reader AppType := alternative? names

end AppType

namespace NodeRole

def names : List (String × NodeRole) := [("master", master), ("slave", slave)]

def toJson (r : NodeRole) : Json := nameOf names r

def read? : Reader NodeRole := alternative? names

end NodeRole

namespace UserLevel

def names : List (String × UserLevel) := [("admin", admin), ("normal", normal)]

def toJson (l : UserLevel) : Json := nameOf names l

def read? : Reader UserLevel := alternative? names

end UserLevel

namespace EntityKind

def names : List (String × EntityKind) :=
  [user, app, config, webhook, node].map fun kind => (kind.name, kind)

def toJson (k : EntityKind) : Json := nameOf names k

def read? : Reader EntityKind := alternative? names

end EntityKind

namespace User

def toJson (u : User) : Json :=
  .object [("name", .string u.name), ("password_sign", .string u.passwordSign),
    ("level", u.level.toJson)]

def read? : Reader User := fun place j =>
  match record? ["name", "password_sign", "level"] place j with
  | some [some name, some sign, some level] => do
    return ⟨← string? name, ← string? sign, ← UserLevel.read? place.inner level⟩
  | _ => none

end User

namespace App

def toJson (a : App) : Json :=
  .object [("key", .string a.key), ("name", .string a.name), ("type", a.type.toJson),
    ("data_sign", .string a.dataSign), ("key_count", .integer a.keyCount.toNat),
    ("update_times", .integer a.updateTimes.toNat)]

def read? : Reader App := fun place j =>
  match record? ["key", "name", "type", "data_sign", "key_count", "update_times"] place j with
  | some [some key, some name, some type, some sign, some count, some times] => do
    return ⟨← string? key, ← string? name, ← AppType.read? place.inner type, ← string? sign,
      .ofNat (← natBelow? UInt32.size count), .ofNat (← natBelow? UInt64.size times)⟩
  | _ => none

end App

namespace Config

def toJson (c : Config) : Json :=
  .object [("key", .string c.key), ("app_key", .string c.appKey),
    ("field_name", .string c.fieldName), ("raw_value", .string c.rawValue),
    ("value_type", c.valueType.toJson), ("status", c.status.toJson)]

def read? : Reader Config := fun place j =>
  match record? ["key", "app_key", "field_name", "raw_value", "value_type", "status"] place j with
  | some [some key, some app, some field, some raw, some type, some status] => do
    return ⟨← string? key, ← string? app, ← string? field, ← string? raw,
      ← ValueType.read? place.inner type, ← Status.read? place.inner status⟩
  | _ => none

end Config

namespace Webhook

def toJson (w : Webhook) : Json :=
  .object [("key", .string w.key), ("app_key", .string w.appKey), ("url", .string w.url),
    ("status", w.status.toJson)]

def read? : Reader Webhook := fun place j =>
  match record? ["key", "app_key", "url", "status"] place j with
  | some [some key, some app, some url, some status] => do
    return ⟨← string? key, ← string? app, ← string? url, ← Status.read? place.inner status⟩
  | _ => none

end Webhook

namespace Node

def toJson (n : Node) : Json :=
  .object [("url", .string n.url), ("type", n.role.toJson),
    ("last_check_utc", n.lastCheck.elim .null Timestamp.toJson),
    ("data_version", .integer n.dataVersion)]

/-- A moment that may be null. -/
def lastCheck? : Json → Option (Option Timestamp)
  | .null => some none
  | j => (Timestamp.ofJson? j).map some

/-- Reads a node; without a last check it was never checked, without a version it is at zero. -/
def read? : Reader Node := fun place j =>
  match record? ["url", "type", "last_check_utc", "data_version"] place j with
  | some [some url, some role, check, version] => do
    return ⟨← string? url, ← NodeRole.read? place.inner role,
      ← (check.map lastCheck?).getD (some none), ← (version.map int64?).getD (some 0)⟩
  | _ => none

end Node

namespace DataVersion

def toJson (v : DataVersion) : Json :=
  .object [("version", .integer v.version), ("sign", .string v.sign),
    ("old_sign", .string v.oldSign), ("updated_at", v.updatedAt.toJson)]

def read? : Reader DataVersion := fun place j =>
  match record? ["version", "sign", "old_sign", "updated_at"] place j with
  | some [some version, some sign, some old, some at_] => do
    return ⟨← int64? version, ← string? sign, ← string? old, ← Timestamp.ofJson? at_⟩
  | _ => none

end DataVersion

namespace ClientAttribute

def toJson (a : ClientAttribute) : Json :=
  .object [("app_key", .string a.appKey), ("attribute", .string a.name),
    ("value", .string a.value)]

def read? : Reader ClientAttribute := fun place j =>
  match record? ["app_key", "attribute", "value"] place j with
  | some [some app, some attr, some value] => do
    return ⟨← string? app, ← string? attr, ← string? value⟩
  | _ => none

end ClientAttribute

namespace Entity

/-- The record of an entity, without its kind. -/
def recordJson : Entity → Json
  | user u => u.toJson
  | app a => a.toJson
  | config c => c.toJson
  | webhook w => w.toJson
  | node n => n.toJson

def toJson (e : Entity) : Json := .object [("kind", e.kind.toJson), ("record", e.recordJson)]

/-- Reads the record of an entity of a known kind. -/
def readRecord? : EntityKind → Reader Entity
  | .user => fun place j => (User.read? place j).map user
  | .app => fun place j => (App.read? place j).map app
  | .config => fun place j => (Config.read? place j).map config
  | .webhook => fun place j => (Webhook.read? place j).map webhook
  | .node => fun place j => (Node.read? place j).map node

def read? : Reader Entity := tagged? "kind" "record" EntityKind.names readRecord?

end Entity

namespace EntityKey

def toJson (k : EntityKey) : Json := .object [("kind", k.kind.toJson), ("key", .string k.key)]

def read? : Reader EntityKey :=
  tagged? "kind" "key" EntityKind.names fun kind _ j => (string? j).map (⟨kind, ·⟩)

end EntityKey

namespace Change

def toJson : Change → Json
  | upsert e => .object [("op", .string "upsert"), ("entity", e.toJson)]
  | delete k => .object [("op", .string "delete"), ("key", k.toJson)]

/-- Ways to read what an operation applies to, by the name of the operation. -/
def operations : List (String × Reader Change) :=
  [("upsert", fun place rest =>
    match record? ["entity"] place rest with
    | some [some e] => (Entity.read? place.inner e).map upsert
    | _ => none),
   ("delete", fun place rest =>
    match record? ["key"] place rest with
    | some [some k] => (EntityKey.read? place.inner k).map delete
    | _ => none)]

/-- Reads a change: an object with the operation among its fields, or an array that starts with it.
Where the operation stands is only known once all is read, so the rest is held. -/
def read? : Reader Change := fun place j =>
  if !j.fits place.room then none
  else match j with
  | .object fields => do
    let readRest ← choice? operations place.inner (← (← fieldOnce? fields "op"))
    readRest place.hold (.object (fields.filter fun field => field.1 ≠ "op"))
  | .array (op :: rest) => do (← choice? operations place.inner op) place.hold (.array rest)
  | _ => none

end Change

namespace Delta

def toJson (d : Delta) : Json := .object [("changes", .array (d.changes.map Change.toJson))]

def read? : Reader Delta := fun place j =>
  match record? ["changes"] place j with
  | some [some changes] => (list? Change.read? place.inner changes).map Delta.mk
  | _ => none

end Delta

namespace Payload

def toJson (p : Payload) : Json :=
  .object [("delta", p.delta.toJson), ("data_version", p.dataVersion.toJson)]

def read? : Reader Payload := fun place j =>
  match record? ["delta", "data_version"] place j with
  | some [some delta, some version] => do
    return ⟨← Delta.read? place.inner delta, ← DataVersion.read? place.inner version⟩
  | _ => none

end Payload

end RemoteConfig
