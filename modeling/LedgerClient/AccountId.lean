import LedgerClient.Text.Blank
import LedgerClient.Text.Decimal

namespace LedgerClient

/-- An account of the ledger. Nodes are known by theirs. -/
structure AccountId where
  shard : UInt64
  realm : UInt64
  num : UInt64
deriving DecidableEq, Repr

/-- Why a text is not an account id. Both causes quote the text as it was given. -/
inductive AccountId.Malformed
  /-- The text is not three parts with dots between them. -/
  | shape (input : String)
  /-- The first part that is not a number of 64 bits. -/
  | number (input part : String)
deriving DecidableEq, Repr

def AccountId.Malformed.message : AccountId.Malformed → String
  | .shape input => "expected `shard.realm.num`, got '" ++ input ++ "'"
  | .number input part => "invalid number '" ++ part ++ "' in '" ++ input ++ "'"

/-- No account has this id; it stands for "none". -/
def AccountId.isZero (a : AccountId) : Bool :=
  a.shard == 0 && a.realm == 0 && a.num == 0

def AccountId.chars (a : AccountId) : List Char :=
  decimal a.shard.toNat ++ '.' :: (decimal a.realm.toNat ++ '.' :: decimal a.num.toNat)

def AccountId.text (a : AccountId) : String :=
  String.ofList a.chars

/-- A part of an account id: digits after an optional plus sign, at most `2 ^ 64 - 1`. -/
def AccountId.readPart? (part : List Char) : Option UInt64 :=
  (readBelow? UInt64.size part).map UInt64.ofNat

/-- Blanks around the id are dropped, and leading zeros do not count. -/
def AccountId.parse (input : String) : Except AccountId.Malformed AccountId :=
  let part (p : List Char) : Except AccountId.Malformed UInt64 :=
    match AccountId.readPart? p with
    | some n => .ok n
    | none => .error (.number input (String.ofList p))
  match (trim input.toList).splitOn '.' with
  | [p, q, r] => do
    let shard ← part p
    let realm ← part q
    let num ← part r
    return ⟨shard, realm, num⟩
  | _ => .error (.shape input)

/-- Accounts are ordered by shard, then realm, then number. -/
def AccountId.compare (a b : AccountId) : Ordering :=
  (Ord.compare a.shard b.shard).then
    ((Ord.compare a.realm b.realm).then (Ord.compare a.num b.num))

def AccountId.sort (ids : List AccountId) : List AccountId :=
  ids.mergeSort fun a b => (a.compare b).isLE

end LedgerClient
