import RemoteConfig.Decimal.Reading
import RemoteConfig.Json.Basic
/-! # Records in JSON

How values of the domain are read from JSON.  A reader is told about the place where the value
stands: how much may still be nested in it, and whether it is *held*, which means that a part of the
text around it had to be read as a whole before it was known what to read there.  Names of
alternatives are taken more freely in a held value.

A record is an object that names its fields, or an array of them in their order.  Of an object,
unknown fields are skipped and a known field may occur once.  A value that depends on a tag is an
object with a tag field and a content field, or an array of the two. -/

namespace RemoteConfig.Json

/-- Where a value stands. -/
structure Place where
  /-- How many arrays and objects may still be opened. -/
  room : Nat
  /-- Whether the value belongs to a part that was read as a whole beforehand. -/
  held : Bool
deriving DecidableEq, Repr

namespace Place

/-- A text as a whole. -/
def top : Place := ⟨nestingLimit, false⟩

/-- The inside of an array or object. -/
def inner (p : Place) : Place := { p with room := p.room - 1 }

/-- The place of a value that is read as a whole before its meaning is known. -/
def hold (p : Place) : Place := { p with held := true }

end Place

/-- Reads a value that stands at a place. -/
abbrev Reader (α : Type) := Place → Json → Option α

/-- A text, without escapes. -/
def string? : Json → Option String
  | string s => some s
  | _ => none

def bool? : Json → Option Bool
  | bool b => some b
  | _ => none

/-- An integer of 64 bits with a sign. -/
def int64? : Json → Option Int
  | integer n => if Decimal.fitsInt64 n then some n else none
  | _ => none

/-- A natural number below a bound. -/
def natBelow? (bound : Nat) : Json → Option Nat
  | integer n => if 0 ≤ n ∧ n < bound then some n.toNat else none
  | _ => none

/-- An array of values of one kind. -/
def list? {α : Type} (read : Reader α) : Reader (List α) := fun place j =>
  match place.room, j with
  | _ + 1, array items => items.mapM (read place.inner)
  | _, _ => none

/-- All values that an object gives for a name. -/
def valuesOf (name : String) (fields : List (String × Json)) : List Json :=
  (fields.filter fun field => field.1 = name).map Prod.snd

/-- The value of a field that may occur once: nothing inside if it is missing. -/
def fieldOnce? (fields : List (String × Json)) (name : String) : Option (Option Json) :=
  match valuesOf name fields with
  | [] => some none
  | [j] => some (some j)
  | _ => none

/-- The named fields of an object, in the order of the names. -/
def namedFields? (names : List String) (fields : List (String × Json)) :
    Option (List (Option Json)) :=
  names.mapM (fieldOnce? fields)

/-- The fields of a record; they stand inside its place. -/
def record? (names : List String) : Reader (List (Option Json)) := fun place j =>
  match place.room, j with
  | _ + 1, object fields => namedFields? names fields
  | _ + 1, array items =>
    if names.length < items.length then none
    else some ((items.map some) ++ List.replicate (names.length - items.length) none)
  | _, _ => none

/-- Whether a value says no more than the name it is given for: null, and in a held value also an
object without fields. -/
def isBare (place : Place) : Json → Bool
  | null => true
  | object [] => place.held
  | _ => false

/-- One of several named alternatives: its name, or an object that gives the name a bare value. -/
def alternative? {α : Type} (options : List (String × α)) : Reader α := fun place j =>
  match place.room, j with
  | _, string s => options.lookup s
  | _ + 1, object [(s, j)] => if isBare place j then options.lookup s else none
  | _, _ => none

/-- One of several alternatives by its bare name, or in a held value by its number from zero. -/
def choice? {α : Type} (options : List (String × α)) : Reader α := fun place j =>
  match j with
  | string s => options.lookup s
  | integer n => if place.held && 0 ≤ n then options[n.toNat]?.map Prod.snd else none
  | _ => none

/-- A value whose kind is told by a tag.  Content before its tag is read as a whole before the tag
is known: all of it has to be readable, and it is held. -/
def tagged? {α β : Type} (tagName contentName : String) (tags : List (String × α))
    (content : α → Reader β) : Reader β := fun place j =>
  match place.room, j with
  | room + 1, object fields =>
    match fields.filter fun field => field.1 = tagName ∨ field.1 = contentName with
    | [(first, a), (second, b)] =>
      if first = tagName ∧ second = contentName then
        (alternative? tags place.inner a).bind (content · place.inner b)
      else if first = contentName ∧ second = tagName ∧ a.fits room then
        (alternative? tags place.inner b).bind (content · place.inner.hold a)
      else none
    | _ => none
  | _ + 1, array [a, b] => (choice? tags place.inner a).bind (content · place.inner b)
  | _, _ => none

end RemoteConfig.Json
