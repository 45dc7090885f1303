import LedgerClient.Ipv6
import LedgerClient.Text.Blank

namespace LedgerClient

inductive Host
  | name (text : String)
  | ipv6 (address : Ipv6)
deriving DecidableEq

def Host.text : Host → String
  | .name text => text
  | .ipv6 address => String.ofList address.chars

structure NodeAddress where
  host : Host
  port : UInt16
deriving DecidableEq

/-- An address of version 6 stands in brackets. -/
def NodeAddress.chars (a : NodeAddress) : List Char :=
  match a.host with
  | .name text => text.toList ++ ':' :: decimal a.port.toNat
  | .ipv6 address => '[' :: (address.chars ++ ']' :: ':' :: decimal a.port.toNat)

def NodeAddress.text (a : NodeAddress) : String :=
  String.ofList a.chars

/-- Why a text is not an address. -/
inductive NodeAddress.Flaw
  | emptyHost
  | invalidPort
  | invalidIpv6
  | invalidCharacter
  | notHostPort
  | missingHost
  | missingPort
deriving DecidableEq, Repr

def NodeAddress.Flaw.reason : NodeAddress.Flaw → String
  | .emptyHost => "empty host"
  | .invalidPort => "invalid port number"
  | .invalidIpv6 => "invalid IPv6 address"
  | .invalidCharacter => "invalid domain character"
  | .notHostPort => "expected host:port"
  | .missingHost => "missing host"
  | .missingPort => "missing port"

/-- A text that was refused, as it was given. -/
structure NodeAddress.Malformed where
  input : String
  flaw : NodeAddress.Flaw
deriving DecidableEq, Repr

def NodeAddress.Malformed.message (m : NodeAddress.Malformed) : String :=
  "invalid node address '" ++ m.input ++ "': " ++ m.flaw.reason

/-- The characters that end the authority of a locator. -/
def endsAuthority (c : Char) : Bool :=
  c == '/' || c == '?' || c == '#'

/-- The text that is read as an authority: without blanks at its ends, without control characters
and spaces at its end, and without tabs and line breaks. -/
def NodeAddress.significant (input : String) : List Char :=
  (dropTail (· ≤ ' ') (trim input.toList)).filter fun c => c != '\t' && c != '\n' && c != '\r'

/-- The parts of a text around the last at-sign of the authority. -/
def NodeAddress.cutCredentials? (s : List Char) : Option (List Char × List Char) :=
  let head := s.takeWhile fun c => !endsAuthority c
  let host := (head.reverse.takeWhile (· != '@')).reverse
  if host.length < head.length then
    let before := head.take (head.length - host.length - 1)
    some (before, s.drop (before.length + 1))
  else none

/-- The host a text begins with, and what follows it. A colon in brackets belongs to the host. -/
def NodeAddress.cutHost (inBrackets : Bool) : List Char → List Char × List Char
  | [] => ([], [])
  | c :: rest =>
    if (c == ':' && !inBrackets) || endsAuthority c then ([], c :: rest)
    else
      let (host, after) :=
        NodeAddress.cutHost (c == '[' || (inBrackets && c != ']')) rest
      (c :: host, after)

/-- Characters that no host may contain. -/
def NodeAddress.isForbidden (c : Char) : Bool :=
  ['\x00', '\t', '\n', '\r', ' ', '#', '/', ':', '<', '>', '?', '@', '[', '\\', ']', '^',
    '|'].contains c

/-- Control characters and characters beyond ASCII are written as percent signs with bytes. -/
def NodeAddress.escapeHostChar (c : Char) : List Char :=
  if c.toNat < 0x20 || 0x7F ≤ c.toNat then
    (String.utf8EncodeChar c).flatMap fun b => '%' :: hexByte b
  else [c]

/-- A host, which is none if it is empty. -/
def NodeAddress.readHost (s : List Char) : Except NodeAddress.Flaw (Option Host) :=
  match s with
  | [] => .ok none
  | '[' :: rest =>
    match rest.reverse with
    | ']' :: inner =>
      match Ipv6.parse? inner.reverse with
      | some a => .ok (some (.ipv6 a))
      | none => .error .invalidIpv6
    | _ => .error .invalidIpv6
  | _ =>
    if s.any NodeAddress.isForbidden then .error .invalidCharacter
    else .ok (some (.name (String.ofList (s.flatMap NodeAddress.escapeHostChar))))

/-- The port after a colon, which is none if no digit follows, and the text after it. -/
def NodeAddress.readPort (s : List Char) : Except NodeAddress.Flaw (Option UInt16 × List Char) :=
  let digits := s.takeWhile Char.isDigit
  let rest := s.dropWhile Char.isDigit
  let complete := match rest with
    | [] => true
    | c :: _ => endsAuthority c || c == '\\'
  let port := (readDecimal? digits).getD 0
  if UInt16.size ≤ port || !complete then .error .invalidPort
  else if digits = [] then .ok (none, rest)
  else .ok (some (UInt16.ofNat port), rest)

/-- What a text holds when it is read as an authority with what may follow one. -/
structure NodeAddress.Parts where
  user : List Char
  password : List Char
  host : Option Host
  port : Option UInt16
  /-- Path, query and fragment. -/
  rest : List Char

def NodeAddress.readParts (s : List Char) : Except NodeAddress.Flaw NodeAddress.Parts := do
  let (credentials, s) ← match NodeAddress.cutCredentials? s with
    | none => pure ([], s)
    | some ([], c :: after) =>
      if endsAuthority c then throw .emptyHost else pure ([], c :: after)
    | some cut => pure cut
  let user := credentials.takeWhile (· != ':')
  let password := (credentials.dropWhile (· != ':')).drop 1
  let (hostText, after) := NodeAddress.cutHost false s
  let host ← NodeAddress.readHost hostText
  let (port, rest) ← match after with
    | ':' :: after => if host.isNone then throw .emptyHost else NodeAddress.readPort after
    | _ => pure (none, after)
  if host.isNone && !(user.isEmpty && password.isEmpty) then throw .emptyHost
  return ⟨user, password, host, port, rest⟩

/-- Nothing but a host and a port: no user, path or query. A password without a user and a
fragment are passed over. -/
def NodeAddress.ofParts (p : NodeAddress.Parts) : Except NodeAddress.Flaw NodeAddress := do
  let beyond := match p.rest with
    | [] => false
    | c :: _ => c != '#'
  if !p.user.isEmpty || beyond then throw .notHostPort
  let some host := p.host | throw .missingHost
  let some port := p.port | throw .missingPort
  return ⟨host, port⟩

def NodeAddress.parse (input : String) : Except NodeAddress.Malformed NodeAddress :=
  ((NodeAddress.readParts (NodeAddress.significant input)).bind NodeAddress.ofParts).mapError
    fun flaw => ⟨input, flaw⟩

end LedgerClient
