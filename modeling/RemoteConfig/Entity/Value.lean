import RemoteConfig.Error
import RemoteConfig.Rule.Wire
/-! # Values of configs

A config holds its value as text.  The text is decoded once, when the config enters the memory.  A
config whose text cannot be decoded is kept with the error, so that one bad entry does not hide the
rest of its app. -/

namespace RemoteConfig

inductive ConfigValue where
  | string (s : String)
  | int (n : Int)
  | float (x : Binary64)
  | code (r : Rule)
  /-- The key of the template app whose configs are inlined. -/
  | template (key : String)
deriving Repr

namespace ConfigValue

/-- Decodes a text as a value of the given type.  Rules have to be admitted.  What the JSON library
says of a text that it rejects depends on nothing but that text, which stands for it here. -/
def compile (type : ValueType) (raw : String) : Except Error ConfigValue :=
  match type with
  | .string => .ok (string raw)
  | .int =>
    match Decimal.readInteger (Text.trim raw.toList) with
    | some n => .ok (int n)
    | none => .error (.validation (.notAnInteger raw))
  | .float =>
    match Decimal.readNumber (Text.trim raw.toList) with
    | some x => .ok (float x)
    | none => .error (.validation (.notANumber raw))
  | .code =>
    match Rule.parseJson raw with
    | none => .error (.decode (.json raw))
    | some r =>
      match r.accept with
      | .ok () => .ok (code r)
      | .error reason => .error (.validation (.rule reason))
  | .template =>
    let key := Text.trimmed raw
    if key.isEmpty then .error (.validation .emptyTemplateKey) else .ok (template key)

end ConfigValue

/-- A config with its decoded value. -/
structure CompiledConfig where
  entry : Config
  value : Except Error ConfigValue

/-- Decodes the value of a config. -/
def Config.compile (c : Config) : CompiledConfig := ⟨c, ConfigValue.compile c.valueType c.rawValue⟩

end RemoteConfig
