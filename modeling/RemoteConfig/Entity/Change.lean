import RemoteConfig.Entity.Basic
/-! # Changes and versions

A mutation is a list of changes that is committed as a whole, and moves the data version on.  Each
data version carries the sign of the one before it, so whoever receives a mutation can tell whether
it continues the chain that is known already. -/

namespace RemoteConfig

inductive Change where
  | upsert (e : Entity)
  | delete (k : EntityKey)
deriving DecidableEq, Repr

/-- The entity that a change is about. -/
def Change.key : Change → EntityKey
  | upsert e => e.key
  | delete k => k

structure Delta where
  changes : List Change
deriving DecidableEq, Repr

namespace Delta

def empty : Delta := ⟨[]⟩

def isEmpty (d : Delta) : Bool := d.changes.isEmpty

def upsert (d : Delta) (e : Entity) : Delta := ⟨d.changes ++ [.upsert e]⟩

def delete (d : Delta) (k : EntityKey) : Delta := ⟨d.changes ++ [.delete k]⟩

end Delta

/-- A point in the chain of committed mutations. -/
structure DataVersion where
  version : Int
  sign : String
  oldSign : String
  updatedAt : Timestamp
deriving DecidableEq, Repr

namespace DataVersion

/-- The version of an empty memory, before anything is loaded. -/
def unset : DataVersion := ⟨0, "", "", .epoch⟩

/-- The first version of a node that starts without data. -/
def initial (sign : String) (now : Timestamp) : DataVersion := ⟨0, sign, "", now⟩

/-- The number after a version number, in a word of 64 bits. -/
def successor (n : Int) : Int := if n = 0x7fffffffffffffff then -0x8000000000000000 else n + 1

/-- The version that a mutation leads to. -/
def next (v : DataVersion) (sign : String) (now : Timestamp) : DataVersion :=
  ⟨successor v.version, sign, v.sign, now⟩

/-- Whether a version directly continues the chain. -/
def isFollowedBy (v w : DataVersion) : Bool :=
  w.version = successor v.version && w.oldSign = v.sign

end DataVersion

/-- What a master sends after a mutation: the changes and the version they lead to. -/
structure Payload where
  delta : Delta
  dataVersion : DataVersion
deriving DecidableEq, Repr

/-- One value that a client attribute was seen to have. -/
structure ClientAttribute where
  appKey : String
  name : String
  value : String
deriving DecidableEq, Repr

end RemoteConfig
