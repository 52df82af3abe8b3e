import Std.Data.ExtTreeSet
import RemoteConfig.Entity.Value
/-! # Snapshots

A snapshot is all that a node holds at one data version.  Beside the entities it keeps two derived
indexes: the app of each name, and the configs of each app.  Changes are applied one by one, and
keep the indexes in step. -/

namespace RemoteConfig

/-- Values by key, in the order of the keys. -/
abbrev Table (α : Type) := Std.ExtTreeMap String α compare

/-- Keys in their order. -/
abbrev Keys := Std.ExtTreeSet String compare

structure Snapshot where
  dataVersion : DataVersion
  users : Table User
  apps : Table App
  /-- The key of the app that has a name. -/
  appsByName : Table String
  configs : Table CompiledConfig
  /-- The keys of the configs of an app; an app without configs is missing. -/
  appConfigKeys : Table Keys
  webhooks : Table Webhook
  nodes : Table Node

namespace Snapshot

def empty : Snapshot where
  dataVersion := .unset
  users := ∅
  apps := ∅
  appsByName := ∅
  configs := ∅
  appConfigKeys := ∅
  webhooks := ∅
  nodes := ∅

/-! ## Changes -/

/-- Takes a config out of the index of an app. -/
def unindex (index : Table Keys) (appKey key : String) : Table Keys :=
  match index[appKey]? with
  | none => index
  | some keys =>
    let rest := keys.erase key
    if rest.isEmpty then index.erase appKey else index.insert appKey rest

/-- Puts a config into the index of an app. -/
def index (index : Table Keys) (appKey key : String) : Table Keys :=
  index.insert appKey ((index[appKey]?.getD ∅).insert key)

/-- Enters an app; a former name of it is given up. -/
def upsertApp (s : Snapshot) (a : App) : Snapshot :=
  let names := match s.apps[a.key]? with
    | some previous =>
      if previous.name = a.name then s.appsByName else s.appsByName.erase previous.name
    | none => s.appsByName
  { s with apps := s.apps.insert a.key a, appsByName := names.insert a.name a.key }

/-- Enters a config; if it belonged to another app, it leaves that app's index. -/
def upsertConfig (s : Snapshot) (c : Config) : Snapshot :=
  let kept := match s.configs[c.key]? with
    | some previous =>
      if previous.entry.appKey = c.appKey then s.appConfigKeys
      else unindex s.appConfigKeys previous.entry.appKey c.key
    | none => s.appConfigKeys
  { s with
    configs := s.configs.insert c.key c.compile
    appConfigKeys := index kept c.appKey c.key }

def upsert (s : Snapshot) : Entity → Snapshot
  | .user u => { s with users := s.users.insert u.name u }
  | .app a => s.upsertApp a
  | .config c => s.upsertConfig c
  | .webhook w => { s with webhooks := s.webhooks.insert w.key w }
  | .node n => { s with nodes := s.nodes.insert n.url n }

/-- Removes an app with its name and its index; its configs stay. -/
def deleteApp (s : Snapshot) (key : String) : Snapshot :=
  let names := match s.apps[key]? with
    | some a => s.appsByName.erase a.name
    | none => s.appsByName
  { s with
    apps := s.apps.erase key
    appsByName := names
    appConfigKeys := s.appConfigKeys.erase key }

/-- Removes a config from the memory and from the index of its app. -/
def deleteConfig (s : Snapshot) (key : String) : Snapshot :=
  match s.configs[key]? with
  | some c =>
    { s with
      configs := s.configs.erase key
      appConfigKeys := unindex s.appConfigKeys c.entry.appKey key }
  | none => s

def delete (s : Snapshot) (k : EntityKey) : Snapshot :=
  match k.kind with
  | .user => { s with users := s.users.erase k.key }
  | .app => s.deleteApp k.key
  | .config => s.deleteConfig k.key
  | .webhook => { s with webhooks := s.webhooks.erase k.key }
  | .node => { s with nodes := s.nodes.erase k.key }

def apply (s : Snapshot) : Change → Snapshot
  | .upsert e => s.upsert e
  | .delete k => s.delete k

/-- Applies changes in their order. -/
def applyAll (s : Snapshot) (changes : List Change) : Snapshot := changes.foldl apply s

/-- Applies a mutation and moves on to the version it leads to. -/
def advance (s : Snapshot) (d : Delta) (v : DataVersion) : Snapshot :=
  { s.applyAll d.changes with dataVersion := v }

/-! ## Queries -/

def user? (s : Snapshot) (name : String) : Option User := s.users[name]?

def app? (s : Snapshot) (key : String) : Option App := s.apps[key]?

def appByName? (s : Snapshot) (name : String) : Option App :=
  s.appsByName[name]?.bind fun key => s.apps[key]?

/-- The app of a key, or else of a name. -/
def findApp? (s : Snapshot) (keyOrName : String) : Option App :=
  (s.app? keyOrName).or (s.appByName? keyOrName)

def config? (s : Snapshot) (key : String) : Option CompiledConfig := s.configs[key]?

/-- The configs of an app, in the order of their keys. -/
def appConfigs (s : Snapshot) (appKey : String) : List CompiledConfig :=
  (s.appConfigKeys[appKey]?.getD ∅).toList.filterMap fun key => s.configs[key]?

def webhook? (s : Snapshot) (key : String) : Option Webhook := s.webhooks[key]?

def node? (s : Snapshot) (url : String) : Option Node := s.nodes[url]?

/-- The first registered master. -/
def master? (s : Snapshot) : Option Node := s.nodes.values.find? (·.role = .master)

def slaves (s : Snapshot) : List Node := s.nodes.values.filter (·.role = .slave)

def contains (s : Snapshot) (k : EntityKey) : Bool :=
  match k.kind with
  | .user => s.users.contains k.key
  | .app => s.apps.contains k.key
  | .config => s.configs.contains k.key
  | .webhook => s.webhooks.contains k.key
  | .node => s.nodes.contains k.key

/-- Whether an app has a config that inlines the given template. -/
def isTemplateReferenced (s : Snapshot) (templateKey : String) : Bool :=
  s.apps.keys.any fun appKey => (s.appConfigs appKey).any fun c =>
    match c.value with
    | .ok (.template key) => key = templateKey
    | _ => false

end Snapshot

end RemoteConfig
