import RemoteConfig.Digest
import RemoteConfig.Rule.Evaluator
import RemoteConfig.Snapshot.Basic
/-! # Resolution

The active configs of an app become fields for one client.  A template config inlines the fields of
another app, and that app may inline further ones, up to a given number of levels; beyond it the
template is left out.  The fingerprint of an app changes with the signs of all apps that its
resolution inlines. -/

namespace RemoteConfig

/-- The value of one field: a scalar, or the fields of a template app by name. -/
inductive Resolved where
  | scalar (value : Scalar)
  | nested (fields : List (String × Resolved))
deriving Repr, Inhabited

/-- Fields in the order of their names, each name once. -/
abbrev Fields := List (String × Resolved)

namespace Fields

/-- Enters a field; an earlier one of the same name is replaced. -/
def insert (name : String) (value : Resolved) : Fields → Fields
  | [] => [(name, value)]
  | (n, v) :: rest =>
    if name < n then (name, value) :: (n, v) :: rest
    else if name = n then (name, value) :: rest
    else (n, v) :: insert name value rest

end Fields

namespace Resolved

mutual
def toJson : Resolved → Json
  | scalar value => value.toJson
  | nested fields => .object (fieldsJson fields)

def fieldsJson : Fields → List (String × Json)
  | [] => []
  | (name, value) :: rest => (name, value.toJson) :: fieldsJson rest
end

mutual
/-- The value that a JSON value denotes, whatever its nesting. -/
def ofJson? : Json → Option Resolved
  | .object fields => (ofFields? fields).map nested
  | j => (Scalar.ofJson? j).map scalar

/-- The fields that an object denotes; of a repeated name the last one counts. -/
def ofFields? : List (String × Json) → Option Fields
  | [] => some []
  | (name, j) :: rest =>
    match ofJson? j, ofFields? rest with
    | some value, some fields =>
      some (if fields.any (·.1 = name) then fields else Fields.insert name value fields)
    | _, _ => none
end

end Resolved

namespace Fields

def toJson (fields : Fields) : Json := .object (Resolved.fieldsJson fields)

open Json in
/-- Reads fields, all of which have to be readable. -/
def read? : Reader Fields := fun place j =>
  match j with
  | .object fields => if j.fits place.room then Resolved.ofFields? fields else none
  | _ => none

end Fields

namespace Snapshot

/-- The field names and values of the active configs of an app that could be decoded. -/
def activeValues (s : Snapshot) (appKey : String) : List (String × ConfigValue) :=
  (s.appConfigs appKey).filterMap fun c =>
    if c.entry.isActive then c.value.toOption.map (c.entry.fieldName, ·) else none

/-- How a template is turned into fields; nothing if it is left out. -/
abbrev Inliner := Evaluator → String → Option Fields × Evaluator

/-- The value of a config for a client; nothing if it is a template that is left out. -/
def resolveValue (inline : Inliner) (ctx : Context) (ev : Evaluator) :
    ConfigValue → Option Resolved × Evaluator
  | .string s => (some (.scalar (.string s)), ev)
  | .int n => (some (.scalar (.int n)), ev)
  | .float x => (some (.scalar (.float x)), ev)
  | .code r =>
    let (value, ev) := ev.select ctx r
    (some (.scalar value), ev)
  | .template key =>
    let (fields, ev) := inline ev key
    (fields.map .nested, ev)

/-- The fields of some configs for a client, beside those that are there already. -/
def resolveValues (inline : Inliner) (ctx : Context) (fields : Fields) (ev : Evaluator) :
    List (String × ConfigValue) → Fields × Evaluator
  | [] => (fields, ev)
  | (name, value) :: rest =>
    match resolveValue inline ctx ev value with
    | (some resolved, ev) => resolveValues inline ctx (fields.insert name resolved) ev rest
    | (none, ev) => resolveValues inline ctx fields ev rest

/-- The fields of an app for a client, with at most `levels` levels of templates. -/
def resolve (s : Snapshot) (ctx : Context) :
    (levels : Nat) → Evaluator → String → Fields × Evaluator
  | 0, ev, appKey => resolveValues (fun ev _ => (none, ev)) ctx [] ev (s.activeValues appKey)
  | levels + 1, ev, appKey =>
    let inline : Inliner := fun ev key =>
      match s.findApp? key with
      | none => (none, ev)
      | some template =>
        let (fields, ev) := resolve s ctx levels ev template.key
        (some fields, ev)
    resolveValues inline ctx [] ev (s.activeValues appKey)

/-- The signs of the apps that are inlined into an app, outer ones before inner ones. -/
def templateSigns (s : Snapshot) : (levels : Nat) → String → List String
  | 0, _ => []
  | levels + 1, appKey => (s.activeValues appKey).flatMap fun (_, value) =>
    match value with
    | .template key =>
      match s.findApp? key with
      | some template => template.dataSign :: templateSigns s levels template.key
      | none => []
    | _ => []

/-- The sign under which clients keep the fields of an app: its own, or if it inlines others a
digest of all of them. -/
def fingerprint (s : Snapshot) (a : App) (levels : Nat) : String :=
  match s.templateSigns levels a.key with
  | [] => a.dataSign
  | signs => Digest.md5 (":".intercalate (a.dataSign :: signs))

end Snapshot

end RemoteConfig
