import RemoteConfig.Replica
import RemoteConfig.Url.Basic
/-! # Write requests

What an operator can ask a node for.  A request is first looked at by itself; then the mutation that
carries it out is made from the current snapshot, or the request is refused because of what the
snapshot holds. -/

namespace RemoteConfig

inductive Write where
  | putUser (u : User)
  | deleteUser (name : String)
  /-- Creates an app, or gives it another name and type. -/
  | putApp (key name : String) (type : AppType)
  | deleteApp (key : String)
  | putConfig (c : Config)
  | deleteConfig (key : String)
  | putWebhook (w : Webhook)
  | deleteWebhook (key : String)
  | putNode (n : Node)
  | deleteNode (url : String)
deriving DecidableEq, Repr

namespace Write

/-- Refuses something that is not there. -/
def require (s : Snapshot) (k : EntityKey) : Except Error Unit :=
  if s.contains k then .ok () else .error (.notFound k.kind.name k.key)

def requireUrl (url : String) : Except Error Unit :=
  if Url.isAbsolute url then .ok () else .error .invalidUrl

/-- Refuses a request with the given cause if a condition holds. -/
def refuseIf (condition : Bool) (cause : Invalid) : Except Error Unit :=
  if condition then .error (.validation cause) else .ok ()

/-- What can be said about a request without the snapshot. -/
def check (settings : Settings) : Write → Except Error Unit
  | putUser u => refuseIf u.name.isEmpty .emptyUserName
  | putApp key name _ => refuseIf (key.isEmpty || name.isEmpty) .emptyAppKeyOrName
  | putConfig c => do
    refuseIf (c.key.isEmpty || c.fieldName.isEmpty) .emptyConfigKeyOrField
    let _ ← c.compile.value
  | putWebhook w => requireUrl w.url
  | putNode n => do
    requireUrl n.url
    refuseIf (n.url = settings.url && n.role ≠ settings.role) (.localRole n.url)
  | deleteNode url => refuseIf (url = settings.url) .localNodeRemoval
  | _ => .ok ()

/-- An app after one more update of it. -/
def updated (a : App) : App := { a with updateTimes := a.updateTimes + 1 }

/-- An app under a new sign, if the fields of its clients change. -/
def resigned (a : App) (changes : Bool) (sign : String) : App :=
  if changes then { a with dataSign := sign } else a

def putAppDelta (sign key name : String) (type : AppType) (s : Snapshot) : Except Error Delta := do
  refuseIf ((s.appByName? name).any (·.key ≠ key)) (.appNameTaken name)
  match s.app? key with
  | some a =>
    refuseIf (a.type = .template && type ≠ .template && s.isTemplateReferenced key)
      (.templateReferenced key)
    return Delta.empty.upsert (.app { updated a with name := name, type := type })
  | none => return Delta.empty.upsert (.app ⟨key, name, type, sign, 0, 0⟩)

/-- An app goes with its web hooks, but not as long as it has configs. -/
def deleteAppDelta (key : String) (s : Snapshot) : Except Error Delta := do
  require s ⟨.app, key⟩
  refuseIf (!(s.appConfigs key).isEmpty) (.appHasConfigs key)
  refuseIf (s.isTemplateReferenced key) (.templateReferenced key)
  let hooks := s.webhooks.values.filter (·.appKey = key)
  return hooks.foldl (fun d w => d.delete ⟨.webhook, w.key⟩) (Delta.empty.delete ⟨.app, key⟩)

/-- Refuses a value that inlines anything but another app, which has to be a template. -/
def checkTemplate (s : Snapshot) (appKey : String) : ConfigValue → Except Error Unit
  | .template key =>
    refuseIf (!(s.app? key).any fun a => a.type = .template && a.key ≠ appKey) (.notATemplate key)
  | _ => .ok ()

/-- A config comes with a new row for its app, which counts it and is signed anew if clients may see
the difference. -/
def putConfigDelta (sign : String) (c : Config) (s : Snapshot) : Except Error Delta := do
  let value ← c.compile.value
  match s.app? c.appKey with
  | none => .error (.notFound EntityKind.app.name c.appKey)
  | some a =>
    let before := (s.config? c.key).map (·.entry)
    match before with
    | some b => refuseIf (b.appKey ≠ c.appKey) (.configOfOtherApp c.key b.appKey)
    | none => .ok ()
    refuseIf ((s.appConfigs c.appKey).any fun other =>
      other.entry.key ≠ c.key && other.entry.fieldName = c.fieldName)
      (.fieldExists c.fieldName c.appKey)
    checkTemplate s c.appKey value
    let a := updated a
    let a := if before.isNone then { a with keyCount := a.keyCount + 1 } else a
    let a := resigned a (before.any Config.isActive || c.isActive) sign
    return (Delta.empty.upsert (.config c)).upsert (.app a)

/-- A word less one, but not below zero. -/
def decremented (n : UInt32) : UInt32 := if n = 0 then 0 else n - 1

def deleteConfigDelta (sign key : String) (s : Snapshot) : Except Error Delta :=
  match s.config? key with
  | none => .error (.notFound EntityKind.config.name key)
  | some c =>
    let d := Delta.empty.delete ⟨.config, key⟩
    match s.app? c.entry.appKey with
    | none => .ok d
    | some a =>
      let a := { updated a with keyCount := decremented a.keyCount }
      .ok (d.upsert (.app (resigned a c.entry.isActive sign)))

/-- There is one master at most, and it stays master. -/
def putNodeDelta (n : Node) (s : Snapshot) : Except Error Delta := do
  match s.master? with
  | some master =>
    refuseIf (master.url = n.url && n.role ≠ .master) (.masterDemotion n.url)
    if master.url ≠ n.url ∧ n.role = .master then .error (.masterConflict master.url)
  | none => .ok ()
  return Delta.empty.upsert (.node n)

/-- The mutation that carries out a request.  If it needs a new sign, it takes the given one. -/
def delta (sign : String) : Write → Snapshot → Except Error Delta
  | putUser u, _ => .ok (Delta.empty.upsert (.user u))
  | deleteUser name, s => do
    require s ⟨.user, name⟩
    return Delta.empty.delete ⟨.user, name⟩
  | putApp key name type, s => putAppDelta sign key name type s
  | deleteApp key, s => deleteAppDelta key s
  | putConfig c, s => putConfigDelta sign c s
  | deleteConfig key, s => deleteConfigDelta sign key s
  | putWebhook w, s => do
    require s ⟨.app, w.appKey⟩
    return Delta.empty.upsert (.webhook w)
  | deleteWebhook key, s => do
    require s ⟨.webhook, key⟩
    return Delta.empty.delete ⟨.webhook, key⟩
  | putNode n, s => putNodeDelta n s
  | deleteNode url, s => do
    require s ⟨.node, url⟩
    return Delta.empty.delete ⟨.node, url⟩

end Write

end RemoteConfig
