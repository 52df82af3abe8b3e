import RemoteConfig.Url.Domain
/-! # Web addresses

Whether a text is an absolute URL in the sense of the URL standard of browsers, which repairs much
and refuses little: blanks around the text and line breaks inside it are dropped, a backslash counts
as a slash where the scheme is one of the web, and after the host anything may follow. -/

namespace RemoteConfig.Url

/-- What the scheme says about the rest. -/
inductive Scheme where
  | file
  /-- A scheme of the web, which needs a host. -/
  | web
  | other
deriving DecidableEq, Repr

def Scheme.ofName (name : String) : Scheme :=
  if name = "file" then file
  else if name ∈ ["http", "https", "ws", "wss", "ftp"] then web
  else other

/-- A text without what is ignored: controls and spaces around it, tabs and line breaks in it. -/
def cleaned (cs : List Char) : List Char :=
  let isMargin (c : Char) : Bool := c.toNat ≤ 0x20
  let trimmed := ((cs.dropWhile isMargin).reverse.dropWhile isMargin).reverse
  trimmed.filter fun c => c ≠ '\t' ∧ c ≠ '\n' ∧ c ≠ '\r'

def isSchemeChar (c : Char) : Bool := c.isAlphanum || c = '+' || c = '-' || c = '.'

/-- The scheme of a text, and what follows its colon. -/
def splitScheme (cs : List Char) : Option (Scheme × List Char) :=
  match cs.head?, cs.dropWhile isSchemeChar with
  | some c, ':' :: rest =>
    if c.isAlpha then
      some (.ofName (String.ofList ((cs.takeWhile isSchemeChar).map Char.toLower)), rest)
    else none
  | _, _ => none

def isSlash (c : Char) : Bool := c = '/' || c = '\\'

/-- Whether a character ends the part of an address that holds the host. -/
def endsAuthority (s : Scheme) (c : Char) : Bool :=
  c = '/' || c = '?' || c = '#' || (c = '\\' && s ≠ .other)

/-- Where the port starts: at the first colon that is not in brackets. -/
def splitHost (inBrackets : Bool) : List Char → List Char × List Char
  | [] => ([], [])
  | c :: rest =>
    if c = ':' ∧ !inBrackets then ([], c :: rest)
    else
      let (host, port) := splitHost (c = '[' || (inBrackets && c ≠ ']')) rest
      (c :: host, port)

/-- Whether the text after the host is a port, or nothing. -/
def isPort : List Char → Bool
  | [] => true
  | _ :: rest =>
    let digits := rest.takeWhile Char.isDigit
    Decimal.digitsValue digits < 65536 &&
      ((rest.dropWhile Char.isDigit).head?.all isSlash)

/-- The user before the last `@`, if there is one, and what follows it. -/
def splitUser (cs : List Char) : Option (List Char) × List Char :=
  let host := (cs.reverse.takeWhile (· ≠ '@')).reverse
  if host.length = cs.length then (none, cs)
  else (some (cs.take (cs.length - host.length - 1)), host)

/-- Whether a text starts with a proper user, host and port.  Without a host there may be neither a
user nor a port. -/
def hasAuthority (s : Scheme) (cs : List Char) : Bool :=
  let authority := cs.takeWhile fun c => !endsAuthority s c
  let follows := authority.length < cs.length
  let (user, rest) := splitUser authority
  let (host, port) := splitHost false rest
  if host.isEmpty then
    match s, user with
    | .web, _ => false
    | _, none => port.isEmpty
    | _, some [] => port.isEmpty && !(rest.isEmpty && follows)
    | _, some user => port.isEmpty && user = [':']
  else (if s = .other then isOpaqueHost host else isHost host) && isPort port

/-- A letter and a colon or bar: the name of a drive, not a host. -/
def isDrive : List Char → Bool
  | [c, d] => c.isAlpha && (d = ':' || d = '|')
  | _ => false

/-- Whether the rest of a file address is proper. -/
def isFileRest : List Char → Bool
  | a :: b :: rest =>
    if isSlash a && isSlash b then
      let host := rest.takeWhile fun c => !endsAuthority .file c
      host.isEmpty || isDrive host || isHost host
    else true
  | _ => true

/-- Whether a text is an absolute address. -/
def isAbsolute (s : String) : Bool :=
  match splitScheme (cleaned s.toList) with
  | none => false
  | some (.file, rest) => isFileRest rest
  | some (.web, rest) => hasAuthority .web (rest.dropWhile isSlash)
  | some (.other, '/' :: '/' :: rest) => hasAuthority .other rest
  | some (.other, _) => true

/-- An address to which a path is added: slashes at its end are dropped first. -/
def withPath (base path : String) : String :=
  String.ofList (base.toList.reverse.dropWhile (· = '/')).reverse ++ path

end RemoteConfig.Url
