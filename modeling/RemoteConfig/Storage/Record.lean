import Std.Data.ExtTreeMap
import RemoteConfig.Entity.Wire
import RemoteConfig.Text.Quoted
/-! # Rows of the storage

A storage keeps entities, the data version they are at, and the attribute values seen from clients.
Every row has a kind and a key that is unique in the kind; rows are ordered by kind, then by key. -/

namespace RemoteConfig

inductive RecordKind where
  | entity (kind : EntityKind)
  | dataVersion
  | clientAttribute
deriving DecidableEq, Repr

structure RecordKey where
  kind : RecordKind
  key : String
deriving DecidableEq, Repr

inductive Record where
  | entity (e : Entity)
  | dataVersion (v : DataVersion)
  | clientAttribute (a : ClientAttribute)
deriving DecidableEq, Repr

namespace RecordKind

def all : List RecordKind :=
  [entity .user, entity .app, entity .config, entity .webhook, entity .node, dataVersion,
   clientAttribute]

/-- The place of a kind in the order of rows. -/
def rank : RecordKind → Nat
  | entity .user => 0
  | entity .app => 1
  | entity .config => 2
  | entity .webhook => 3
  | entity .node => 4
  | dataVersion => 5
  | clientAttribute => 6

/-- The list of all kinds is in that order. -/
theorem all_rank (kind : RecordKind) : all[kind.rank]? = some kind := by
  rcases kind with (_ | _ | _ | _ | _) | _ | _ <;> rfl

theorem rank_injective {a b : RecordKind} (h : a.rank = b.rank) : a = b :=
  Option.some.inj (by rw [← all_rank a, h, all_rank b])

/-- The name of a kind on the wire. -/
def name : RecordKind → String
  | entity kind => kind.name
  | dataVersion => "data_version"
  | clientAttribute => "client_attribute"

/-- The name of a kind in messages. -/
def title : RecordKind → String
  | entity .user => "User"
  | entity .app => "App"
  | entity .config => "Config"
  | entity .webhook => "Webhook"
  | entity .node => "Node"
  | dataVersion => "DataVersion"
  | clientAttribute => "ClientAttribute"

end RecordKind

namespace RecordKey

instance : Ord RecordKey := ⟨compareLex (compareOn (·.kind.rank)) (compareOn (·.key))⟩

instance : Std.TransOrd RecordKey :=
  inferInstanceAs (Std.TransCmp (compareLex (compareOn fun k : RecordKey => k.kind.rank)
    (compareOn fun k : RecordKey => k.key)))

instance : Std.LawfulEqOrd RecordKey where
  eq_of_compare {a b} h := by
    have h' : (compare a.kind.rank b.kind.rank).then (compare a.key b.key) = .eq := h
    obtain ⟨hk, hs⟩ := Ordering.then_eq_eq.mp h'
    cases a
    cases b
    simp only [RecordKey.mk.injEq]
    exact ⟨RecordKind.rank_injective (Std.LawfulEqOrd.eq_of_compare hk),
      Std.LawfulEqOrd.eq_of_compare hs⟩

/-- The row of an entity. -/
def ofEntity (k : EntityKey) : RecordKey := ⟨.entity k.kind, k.key⟩

/-- The one row of the data version. -/
def dataVersion : RecordKey := ⟨.dataVersion, "current"⟩

/-- A key as messages show it. -/
def shown (k : RecordKey) : String :=
  "RecordKey \x7b kind: " ++ k.kind.title ++ ", key: " ++ Text.quoted k.key ++ " \x7d"

end RecordKey

namespace Record

def kind : Record → RecordKind
  | entity e => .entity e.kind
  | dataVersion _ => .dataVersion
  | clientAttribute _ => .clientAttribute

/-- The key of a row.  The parts of an attribute value are separated by a control character. -/
def uniqueKey : Record → RecordKey
  | entity e => .ofEntity e.key
  | dataVersion _ => .dataVersion
  | clientAttribute a =>
    ⟨.clientAttribute, a.appKey ++ "\x1f" ++ a.name ++ "\x1f" ++ a.value⟩

end Record

/-! ## JSON form -/

open Json

namespace RecordKind

def names : List (String × RecordKind) := all.map fun kind => (kind.name, kind)

def toJson (k : RecordKind) : Json := .string k.name

def read? : Reader RecordKind := alternative? names

end RecordKind

namespace Record

/-- A row without its kind. -/
def bodyJson : Record → Json
  | entity e => e.recordJson
  | dataVersion v => v.toJson
  | clientAttribute a => a.toJson

def toJson (r : Record) : Json := .object [("kind", r.kind.toJson), ("record", r.bodyJson)]

/-- Reads a row of a known kind. -/
def readBody? : RecordKind → Reader Record
  | .entity kind => fun place j => (Entity.readRecord? kind place j).map entity
  | .dataVersion => fun place j => (DataVersion.read? place j).map dataVersion
  | .clientAttribute => fun place j => (ClientAttribute.read? place j).map clientAttribute

def read? : Reader Record := tagged? "kind" "record" RecordKind.names readBody?

end Record

end RemoteConfig
