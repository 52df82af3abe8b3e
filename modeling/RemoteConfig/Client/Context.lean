import RemoteConfig.Client.Attribute
import RemoteConfig.Json.Record
import RemoteConfig.Text.Blank
/-! # Client contexts

The attributes of one client at one request, and the fingerprint it received before.  Query
parameters name an attribute by its canonical name or by a short alias; the canonical name wins
wherever it stands. -/

namespace RemoteConfig

/-- The fields of a context: the attributes, and the fingerprint of the previous answer. -/
inductive ContextField where
  | client (a : Attribute)
  | dataSign
deriving DecidableEq, Repr

namespace ContextField

def all : List ContextField := Attribute.all.map client ++ [dataSign]

/-- The canonical name of a field. -/
def name : ContextField → String
  | client .appKey => "app_key"
  | client .osType => "os_type"
  | client .osVersion => "os_version"
  | client .appVersion => "app_version"
  | client .ip => "ip"
  | client .lang => "lang"
  | client .deviceId => "device_id"
  | client .timezone => "timezone"
  | client .network => "network"
  | dataSign => "data_sign"

/-- The short name of a field, if it has one. -/
def shortName? : ContextField → Option String
  | client .appKey => some "app"
  | client .osType => some "osv"
  | client .appVersion => some "v"
  | client .deviceId => some "ida"
  | _ => none

/-- The field that a parameter names, and whether it does so canonically. -/
def ofParameter? (s : String) : Option (ContextField × Bool) :=
  match all.find? (·.name = s) with
  | some field => some (field, true)
  | none => (all.find? (·.shortName? = some s)).map (·, false)

end ContextField

/-- The value of every field; a missing one is empty. -/
structure Context where
  value : ContextField → String

namespace Context

def empty : Context := ⟨fun _ => ""⟩

def get (ctx : Context) (a : Attribute) : String := ctx.value (.client a)

def dataSign (ctx : Context) : String := ctx.value .dataSign

def set (ctx : Context) (field : ContextField) (s : String) : Context :=
  ⟨fun f => if f = field then s else ctx.value f⟩

/-- What a symbol stands for; unknown symbols are empty. -/
def lookup (ctx : Context) (symbol : String) : String :=
  match Attribute.ofSymbol? symbol with
  | some a => ctx.get a
  | none => ""

/-- Takes in one parameter: an alias only fills a field that is still empty. -/
def addParameter (ctx : Context) (name value : String) : Context :=
  match ContextField.ofParameter? name with
  | some (field, canonical) =>
    if canonical || (ctx.value field).isEmpty then ctx.set field (Text.trimmed value) else ctx
  | none => ctx

/-- The context of a list of query parameters. -/
def ofParameters (params : List (String × String)) : Context :=
  params.foldl (fun ctx p => ctx.addParameter p.1 p.2) empty

def fields (ctx : Context) : List (String × String) :=
  ContextField.all.map fun field => (field.name, ctx.value field)

/-- The context with the given values, in the order of the fields. -/
def ofValues (values : List String) : Context :=
  (ContextField.all.zip values).foldl (fun ctx p => ctx.set p.1 p.2) empty

open Json in
def toJson (ctx : Context) : Json :=
  .object (ctx.fields.map fun (name, value) => (name, .string value))

open Json in
/-- Reads a context; a missing field is empty. -/
def read? : Reader Context := fun place j => do
  let fields ← record? (ContextField.all.map ContextField.name) place j
  let values ← fields.mapM fun field => match field with
    | none => some ""
    | some j => string? j
  return ofValues values

end Context

end RemoteConfig
