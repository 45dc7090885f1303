import LedgerClient.Config.Check
import LedgerClient.Config.Read
import LedgerClient.Toml.Read

namespace LedgerClient

/-- A way to write configurations down. -/
inductive Config.Format
  | json
  | toml
deriving DecidableEq, Repr

/-- Why a text or file gives no configuration. -/
inductive Config.Refusal
  | notFound
  | isDirectory
  | notText
  /-- The text does not have the format, or does not describe a configuration. -/
  | malformed (format : Config.Format)
  | invalid (violations : List Config.Violation)
deriving DecidableEq

/-- The configuration in a text, whether it satisfies the conditions or not. -/
def Config.ofText? : Config.Format → String → Option Config
  | .json, text => Config.ofJsonText? text
  | .toml, text => (Toml.parse? text).bind (Config.ofDocument? true)

def Config.parse (format : Config.Format) (text : String) : Except Config.Refusal Config :=
  match Config.ofText? format text with
  | none => .error (.malformed format)
  | some c =>
    match c.check with
    | .ok _ => .ok c
    | .error violations => .error (.invalid violations)

/-- What is found under a path. -/
inductive Stored
  | nothing
  | directory
  | file (bytes : List UInt8)

/-- The last part of a path. -/
def baseName (path : List Char) : List Char :=
  (path.reverse.takeWhile (· != '/')).reverse

/-- What follows the last dot of a name, unless that is the name's first character. -/
def extension? (name : List Char) : Option (List Char) :=
  let tail := (name.reverse.takeWhile (· != '.')).reverse
  if tail.length + 1 < name.length then some tail else none

/-- Files with the extension `json` hold JSON, all others TOML. -/
def Config.Format.ofPath (path : String) : Config.Format :=
  match extension? (baseName path.toList) with
  | some e => if e.map Char.toLower = ['j', 's', 'o', 'n'] then .json else .toml
  | none => .toml

def decodeUtf8? (bytes : List UInt8) : Option String :=
  String.fromUTF8? ⟨bytes.toArray⟩

def Config.load (path : String) : Stored → Except Config.Refusal Config
  | .nothing => .error .notFound
  | .directory => .error .isDirectory
  | .file bytes =>
    match decodeUtf8? bytes with
    | none => .error .notText
    | some text => Config.parse (.ofPath path) text

end LedgerClient
