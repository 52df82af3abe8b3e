import RemoteConfig.Error
/-! # Envelopes

Every answer of a node is wrapped: a status, and either the data or the code and message of an
error. -/

namespace RemoteConfig

/-- What an envelope holds. -/
inductive Contents (α : Type) where
  | error (code message : String)
  | data (x : α)
deriving Repr

structure Envelope (α : Type) where
  status : Bool
  contents : Contents α
deriving Repr

namespace Envelope

variable {α : Type}

def ok (x : α) : Envelope α := ⟨true, .data x⟩

def error (e : Error) : Envelope α := ⟨false, .error e.code e.message⟩

def ofResult : Except Error α → Envelope α
  | .ok x => ok x
  | .error e => error e

/-- What the sender meant: the error of a peer is a remote error here. -/
def toResult : Envelope α → Except Error α
  | ⟨true, .data x⟩ => .ok x
  | ⟨false, .error code message⟩ => .error (.remote code message)
  | _ => .error (.decode .statusMismatch)

open Json

def toJson (encode : α → Json) (e : Envelope α) : Json :=
  .object [("status", .bool e.status),
    ("data", match e.contents with
      | .error code message => .object [("code", .string code), ("msg", .string message)]
      | .data x => encode x)]

/-- The code and message of an error: no other field may stand beside them. -/
def errorBody? : Json → Option (String × String)
  | .object fields =>
    if fields.all fun field => field.1 = "code" ∨ field.1 = "msg" then do
      let code ← string? (← (← fieldOnce? fields "code"))
      let message ← string? (← (← fieldOnce? fields "msg"))
      return (code, message)
    else none
  | .array [.string code, .string message] => some (code, message)
  | _ => none

/-- Reads an envelope.  What can be an error is one; all of the contents has to be readable.  The
contents stay where they are while that is found out, so they are not held. -/
def read? (read : Reader α) : Reader (Envelope α) := fun place j =>
  match record? ["status", "data"] place j with
  | some [some status, some data] => do
    let status ← bool? status
    if !data.fits place.inner.room then none
    else match errorBody? data with
      | some (code, message) => some ⟨status, .error code message⟩
      | none => (read place.inner data).map fun x => ⟨status, .data x⟩
  | _ => none

/-- An answer without data. -/
def unitJson : Unit → Json
  | () => .null

def unit? : Reader Unit
  | _, .null => some ()
  | _, _ => none

end Envelope

end RemoteConfig
