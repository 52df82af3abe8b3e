import RemoteConfig.Time.Timestamp
/-! # Entities

What the configuration of a fleet of apps consists of: operators' accounts, apps, their configs, web
hooks, and the nodes that serve it all.  Every entity has a kind and a key, unique in that kind. -/

namespace RemoteConfig

inductive ValueType where
  | string
  | int
  | float
  /-- The value is a rule. -/
  | code
  /-- The value is the key of a template app. -/
  | template
deriving DecidableEq, Repr

inductive Status where
  | active | inactive
deriving DecidableEq, Repr

inductive AppType where
  | real | template
deriving DecidableEq, Repr

inductive NodeRole where
  | master | slave
deriving DecidableEq, Repr

inductive UserLevel where
  | admin | normal
deriving DecidableEq, Repr

structure User where
  name : String
  passwordSign : String
  level : UserLevel
deriving DecidableEq, Repr

structure App where
  key : String
  name : String
  type : AppType
  /-- Renewed whenever an active config of the app changes. -/
  dataSign : String
  keyCount : UInt32
  updateTimes : UInt64
deriving DecidableEq, Repr

structure Config where
  key : String
  appKey : String
  fieldName : String
  rawValue : String
  valueType : ValueType
  status : Status
deriving DecidableEq, Repr

def Config.isActive (c : Config) : Bool := c.status = .active

structure Webhook where
  key : String
  appKey : String
  url : String
  status : Status
deriving DecidableEq, Repr

structure Node where
  url : String
  role : NodeRole
  lastCheck : Option Timestamp
  dataVersion : Int
deriving DecidableEq, Repr

inductive EntityKind where
  | user | app | config | webhook | node
deriving DecidableEq, Repr

structure EntityKey where
  kind : EntityKind
  key : String
deriving DecidableEq, Repr

inductive Entity where
  | user (u : User)
  | app (a : App)
  | config (c : Config)
  | webhook (w : Webhook)
  | node (n : Node)
deriving DecidableEq, Repr

namespace Entity

def kind : Entity → EntityKind
  | user _ => .user
  | app _ => .app
  | config _ => .config
  | webhook _ => .webhook
  | node _ => .node

/-- The key of an entity: the name of an account, the address of a node. -/
def key : Entity → EntityKey
  | user u => ⟨.user, u.name⟩
  | app a => ⟨.app, a.key⟩
  | config c => ⟨.config, c.key⟩
  | webhook w => ⟨.webhook, w.key⟩
  | node n => ⟨.node, n.url⟩

end Entity

/-- The name of a kind in messages and on the wire. -/
def EntityKind.name : EntityKind → String
  | user => "user"
  | app => "app"
  | config => "config"
  | webhook => "webhook"
  | node => "node"

end RemoteConfig
