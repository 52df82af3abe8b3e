import RemoteConfig.Text.Hex
import RemoteConfig.Text.Hidden
/-! # Quoted text in diagnostics

How a message shows a piece of input: between quotes, with a backslash before the quote and the
backslash, the usual letters for the line and tab controls, and the number of the character for
everything a reader could not see. -/

namespace RemoteConfig.Text

/-- One character between two `quote` characters. -/
def quotedChar (quote c : Char) : List Char :=
  if c = quote ∨ c = '\\' then ['\\', c]
  else if c = '\n' then ['\\', 'n']
  else if c = '\t' then ['\\', 't']
  else if c = '\r' then ['\\', 'r']
  else if c = '\x00' then ['\\', '0']
  else if isHidden c then ['\\', 'u', '\x7b'] ++ hexDigits c.toNat ++ ['\x7d']
  else [c]

/-- A string between double quotes. -/
def quoted (s : String) : String :=
  String.ofList ('"' :: s.toList.flatMap (quotedChar '"') ++ ['"'])

/-- A single character between single quotes. -/
def quotedSingle (c : Char) : String :=
  String.ofList ('\'' :: quotedChar '\'' c ++ ['\''])

end RemoteConfig.Text
