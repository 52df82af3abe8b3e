import RemoteConfig.Telemetry
/-! # Recorders

A recorder does not wait for its storage.  What it is shown goes into a queue, and a consumer takes
it from there value by value.  A value that is new is noted as known before it is stored, and struck
out again if it could not be stored.  The consumer goes by single steps, as others may use the
storage between any two of them. -/

namespace RemoteConfig

/-- What the consumer of a queue has begun. -/
inductive Task where
  /-- The value is noted as known, and has to be stored. -/
  | store (a : ClientAttribute)
  /-- The value could not be stored, and has to be struck out. -/
  | forget (a : ClientAttribute)

structure Recorder where
  telemetry : Telemetry
  /-- What was seen, and not yet looked at.  There is always room for more. -/
  queue : List ClientAttribute
  task : Option Task

namespace Recorder

def start (s : Storage) : Recorder := ⟨.start s, [], none⟩

def record (r : Recorder) (appKey : String) (ctx : Context) : Recorder :=
  { r with queue := r.queue ++ Telemetry.observed appKey ctx }

/-- The next step of the consumer. -/
def consume (r : Recorder) (s : Storage) : Recorder × Storage :=
  match r.task, r.queue with
  | none, [] => (r, s)
  | none, a :: rest =>
    if a ∈ r.telemetry.known then ({ r with queue := rest }, s)
    else (⟨⟨a :: r.telemetry.known⟩, rest, some (.store a)⟩, s)
  | some (.store a), _ =>
    match s.commit (Transaction.empty.insert (.clientAttribute a)) with
    | (.ok (), s) => ({ r with task := none }, s)
    | (.error _, s) => ({ r with task := some (.forget a) }, s)
  | some (.forget a), _ =>
    ({ r with telemetry := ⟨r.telemetry.known.filter (· ≠ a)⟩, task := none }, s)

end Recorder

end RemoteConfig
