import RemoteConfig.Url.Address
import RemoteConfig.Url.Direction
import RemoteConfig.Url.Folding
import RemoteConfig.Url.Joining
import RemoteConfig.Url.Punycode
/-! # Hosts

The host of a web address is a numeric address or a domain.  A domain may be written with
percent-escaped bytes; its characters are folded to a common form, and the text is composed.  Then
its labels, the parts between the dots, are looked at.  The host of any other address is opaque:
only a few characters are ruled out. -/

namespace RemoteConfig.Url

/-- Replaces escapes, a percent sign and two digits in base sixteen, by the bytes they stand for. -/
def unescape : List UInt8 → List UInt8
  | 0x25 :: a :: b :: rest =>
    match Text.hexNumber? [Char.ofNat a.toNat, Char.ofNat b.toNat] with
    | some n => UInt8.ofNat n :: unescape rest
    | none => 0x25 :: unescape (a :: b :: rest)
  | byte :: rest => byte :: unescape rest
  | [] => []

def isAscii (cs : List Char) : Bool := cs.all (·.toNat < 0x80)

/-- How many characters a label may have that is not within ASCII. -/
def labelLimit : Nat := 1000

/-- How many characters an encoded label may have behind its mark. -/
def encodedLimit : Nat := 2000

/-- The label that an encoded label stands for.  It has to be one that needed the encoding, and to
be in the form in which labels are encoded. -/
def decodedLabel? (code : List Char) : Option (List Char) :=
  if !isAscii code || encodedLimit < code.length then none
  else (Punycode.decode? code).filter fun label =>
    !isAscii label && label.all isFolded && Text.composed label = label

/-- The label that a label stands for: one that starts with `xn--` is encoded. -/
def label? : List Char → Option (List Char)
  | 'x' :: 'n' :: '-' :: '-' :: code => decodedLabel? code
  | label => some label

/-- Whether a label is proper: it has no forbidden character, does not start with a mark, its
joiners are in place, and it is not too long. -/
def isLabel (label : List Char) : Bool :=
  !label.any isForbidden && !label.head?.any Text.isMark && areJoined [] label &&
    (isAscii label || label.length ≤ labelLimit)

/-- The folded form of a domain, if it is one. -/
def domain? (host : List Char) : Option (List Char) := do
  let bytes := unescape (String.ofList host).toUTF8.toList
  let text ← String.fromUTF8? ⟨bytes.toArray⟩
  let folded := Text.composed (text.toList.flatMap foldChar)
  let labels ← (folded.splitOn '.').mapM label?
  if !folded.isEmpty ∧ labels.all isLabel ∧ areDirected labels then some folded else none

/-- The text between brackets, if a host is in brackets. -/
def bracketed? : List Char → Option (List Char)
  | '[' :: rest => some rest.dropLast
  | _ => none

/-- Whether a text is the host of a web address. -/
def isHost (host : List Char) : Bool :=
  match bracketed? host with
  | some inner => host.getLast? = some ']' && isBracketed inner
  | none => match domain? host with
    | none => false
    | some folded => !endsInNumber folded || isDotted folded

/-- Whether a text is the host of any other address. -/
def isOpaqueHost (host : List Char) : Bool :=
  match bracketed? host with
  | some inner => host.getLast? = some ']' && isBracketed inner
  | none => !host.any fun c => "\x00\t\n\r #/:<>?@[\\]^|".toList.contains c

end RemoteConfig.Url
