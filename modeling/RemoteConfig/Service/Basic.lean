import RemoteConfig.Envelope
import RemoteConfig.Pool
import RemoteConfig.Service.Write
import RemoteConfig.Snapshot.Resolve
import RemoteConfig.Telemetry
/-! # Services

A service is a node that operators and clients talk to: a replica with a pool of evaluators and a
record of what its clients look like.  A slave that has not heard from the master for too long does
not answer clients. -/

namespace RemoteConfig

/-- What a client gets. -/
structure Response where
  /-- Nothing if the client holds these fields already. -/
  fields : Option Fields
  dataSign : String
  /-- The addresses of all nodes. -/
  nodes : List String

namespace Response

open Json

def toJson (r : Response) : Json :=
  .object [("configs", r.fields.elim .null Fields.toJson), ("data_sign", .string r.dataSign),
    ("nodes", .array (r.nodes.map .string))]

/-- Fields that may be null. -/
def readFields? : Reader (Option Fields)
  | _, .null => some none
  | place, j => (Fields.read? place j).map some

def read? : Reader Response := fun place j =>
  match record? ["configs", "data_sign", "nodes"] place j with
  | some [fields, some sign, some nodes] => do
    return ⟨← (fields.map (readFields? place.inner)).getD (some none), ← string? sign,
      ← list? (fun _ => string?) place.inner nodes⟩
  | _ => none

end Response

/-- How a service treats its clients. -/
structure Limits where
  /-- For how many seconds after its last contact with the master a slave answers clients. -/
  staleSeconds : Nat
  /-- How many idle evaluators are kept. -/
  idleEvaluators : Nat
  /-- How many levels of templates are inlined. -/
  templateLevels : Nat
deriving DecidableEq, Repr

namespace Limits

/-- Five minutes, 64 evaluators, eight levels. -/
def standard : Limits := ⟨300, 64, 8⟩

end Limits

structure Service where
  replica : Replica
  limits : Limits
  pool : Pool Evaluator
  telemetry : Telemetry

namespace Service

def snapshot (sv : Service) : Snapshot := sv.replica.snapshot

def role (sv : Service) : NodeRole := sv.replica.settings.role

/-- Starts a service on a storage.  A starting master may have something to tell the slaves. -/
def start (settings : Settings) (limits : Limits) (s : Storage) (m : Moment) :
    Except Error (Service × List (String × Payload)) × Storage :=
  match Replica.start settings s m with
  | (.error e, s) => (.error e, s)
  | (.ok (r, pushes), s) =>
    (.ok (⟨r, limits, .filled limits.idleEvaluators, .start s⟩, pushes), s)

/-! ## Operators -/

/-- Carries out a request, if the data are at the version that the operator expects. -/
def write (sv : Service) (s : Storage) (m : Moment) (expected : Option Int) (w : Write) :
    Except Error Committed × Service × Storage :=
  match w.check sv.replica.settings with
  | .error e => (.error e, sv, s)
  | .ok () =>
    let (result, r, s) := sv.replica.mutate s m expected (w.delta m.spare)
    (result, { sv with replica := r }, s)

/-! ## Clients -/

/-- A number of seconds as a word of 64 bits with a sign. -/
def signedSeconds (n : Nat) : Int := (n : Int).bmod 0x10000000000000000

/-- Refuses clients on a slave that is out of touch with the master. -/
def checkFresh (sv : Service) (now : Timestamp) : Except Error Unit :=
  if sv.role ≠ .slave then .ok ()
  else match sv.replica.store.lastChecked?.map now.secondsSince with
    | none => .error (.staleData none)
    | some age =>
      if age ≤ signedSeconds sv.limits.staleSeconds then .ok () else .error (.staleData (some age))

/-- The fields of an app for a client, with at most `levels` levels of templates. -/
def resolve (sv : Service) (ctx : Context) (levels : Nat) (appKey : String) :
    Fields × Pool Evaluator :=
  sv.pool.use fun ev => sv.snapshot.resolve ctx levels ev appKey

/-- The fields of an app for a client; nothing if the client has those of the given sign. -/
def fieldsFor (sv : Service) (a : App) (sign : String) (ctx : Context) :
    Option Fields × Pool Evaluator :=
  if ctx.dataSign ≠ "" ∧ ctx.dataSign = sign then (none, sv.pool)
  else
    let (fields, pool) := sv.resolve ctx sv.limits.templateLevels a.key
    (some fields, pool)

/-- Answers a client from the snapshot, however old it is, and records what the client looks like. -/
def answer (sv : Service) (s : Storage) (ctx : Context) :
    Except Error Response × Service × Storage :=
  let name := ctx.get .appKey
  match sv.snapshot.findApp? name with
  | none => (.error (.notFound EntityKind.app.name name), sv, s)
  | some a =>
    let (telemetry, s) := sv.telemetry.record s a.key ctx
    let sign := sv.snapshot.fingerprint a sv.limits.templateLevels
    let (fields, pool) := sv.fieldsFor a sign ctx
    (.ok ⟨fields, sign, sv.snapshot.nodes.keys⟩,
      { sv with pool := pool, telemetry := telemetry }, s)

/-- Answers a client, unless the node is out of touch with the master. -/
def get (sv : Service) (s : Storage) (now : Timestamp) (ctx : Context) :
    Except Error Response × Service × Storage :=
  match sv.checkFresh now with
  | .error e => (.error e, sv, s)
  | .ok () => sv.answer s ctx

/-! ## Peers -/

/-- Takes in a mutation that the master pushed. -/
def receive (sv : Service) (s : Storage) (now : Timestamp) (p : Payload) :
    Except Error Unit × Service × Storage :=
  let (result, r, s) := sv.replica.receive s now p
  (result, { sv with replica := r }, s)

end Service

end RemoteConfig
