import LedgerClient.Double

namespace LedgerClient

/-- Integers from `-2 ^ 63` to `2 ^ 64 - 1` are kept exactly; all other numbers are doubles. -/
inductive Number
  | natural (n : UInt64)
  /-- The number `-(n + 1)`. -/
  | negative (n : Fin 0x8000000000000000)
  | double (x : Double)
deriving DecidableEq, Repr

def Number.chars : Number → List Char
  | .natural n => decimal n.toNat
  | .negative n => '-' :: decimal (n.val + 1)
  | .double x => x.chars

inductive Json
  | null
  | bool (b : Bool)
  | number (n : Number)
  | text (s : String)
  | list (items : List Json)
  | record (members : List (String × Json))
deriving Inhabited, Repr

def Json.natural (n : UInt64) : Json :=
  .number (.natural n)

/-- The member of a record with a name. -/
def Json.member? : Json → String → Option Json
  | .record members, name => members.lookup name
  | _, _ => none

end LedgerClient
