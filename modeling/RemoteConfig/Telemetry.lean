import RemoteConfig.Client.Context
import RemoteConfig.Storage.Basic
/-! # Telemetry

A recorder keeps the attribute values that were seen from the clients of each app.  A value that is
new is stored in a transaction of its own; if that fails it is forgotten, and so tried again when it
is seen next. -/

namespace RemoteConfig

structure Telemetry where
  known : List ClientAttribute

namespace Telemetry

/-- The attributes that are recorded.  Addresses and devices have too many values to keep. -/
def recorded : List Attribute := [.osType, .osVersion, .appVersion, .lang, .timezone, .network]

/-- A recorder that knows what the storage holds. -/
def start (s : Storage) : Telemetry :=
  ⟨(s.findAll .clientAttribute).filterMap fun
    | .clientAttribute a => some a
    | _ => none⟩

/-- The values that a context shows for an app; nothing is recorded without an app. -/
def observed (appKey : String) (ctx : Context) : List ClientAttribute :=
  if appKey.isEmpty then []
  else (recorded.filter fun a => !(ctx.get a).isEmpty).map fun a => ⟨appKey, a.symbol, ctx.get a⟩

/-- Takes in one value. -/
def learn (t : Telemetry) (s : Storage) (a : ClientAttribute) : Telemetry × Storage :=
  if a ∈ t.known then (t, s)
  else match s.commit (Transaction.empty.insert (.clientAttribute a)) with
    | (.ok (), s) => (⟨a :: t.known⟩, s)
    | (.error _, s) => (t, s)

/-- Takes in values one by one. -/
def learnAll (t : Telemetry) (s : Storage) : List ClientAttribute → Telemetry × Storage
  | [] => (t, s)
  | a :: rest =>
    let (t, s) := t.learn s a
    learnAll t s rest

/-- Takes in what a context shows for an app. -/
def record (t : Telemetry) (s : Storage) (appKey : String) (ctx : Context) : Telemetry × Storage :=
  t.learnAll s (observed appKey ctx)

/-- The values of an attribute among the clients of an app, in order. -/
def knownValues (t : Telemetry) (appKey : String) (a : Attribute) : List String :=
  ((t.known.filter fun k => k.appKey = appKey ∧ k.name = a.symbol).map (·.value)).mergeSort
    fun x y => !(y < x)

end Telemetry

end RemoteConfig
