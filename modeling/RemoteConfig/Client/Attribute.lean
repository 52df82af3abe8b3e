/-! # Client attributes

What is known of a client: nine attributes, each with the symbol by which rules refer to it. -/

namespace RemoteConfig

inductive Attribute where
  | appKey | osType | osVersion | appVersion | ip | lang | deviceId | timezone | network
deriving DecidableEq, Repr

/-- The kind of values of an attribute; operators apply to one kind or the other. -/
inductive Domain where
  | version
  | text
deriving DecidableEq, Repr

namespace Attribute

def all : List Attribute :=
  [appKey, osType, osVersion, appVersion, ip, lang, deviceId, timezone, network]

/-- The symbol of an attribute in rules. -/
def symbol : Attribute → String
  | appKey => "APP_KEY"
  | osType => "OS_TYPE"
  | osVersion => "OS_VERSION"
  | appVersion => "APP_VERSION"
  | ip => "IP"
  | lang => "LANG"
  | deviceId => "DEVICE_ID"
  | timezone => "TIMEZONE"
  | network => "NETWORK"

/-- The attribute of a given symbol. -/
def ofSymbol? (s : String) : Option Attribute := all.find? (·.symbol = s)

def domain : Attribute → Domain
  | osVersion | appVersion => .version
  | _ => .text

end Attribute

end RemoteConfig
