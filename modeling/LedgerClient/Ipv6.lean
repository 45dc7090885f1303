import LedgerClient.Text.Decimal
import LedgerClient.Text.Hexadecimal

namespace LedgerClient

structure Ipv6 where
  groups : List UInt16
  length_eq : groups.length = 8
deriving DecidableEq

/-- A group: one to four hexadecimal digits. -/
def Ipv6.readGroup? (s : List Char) : Option UInt16 :=
  if s ≠ [] ∧ s.length ≤ 4 then (readHex? s).map UInt16.ofNat else none

/-- A byte in decimal, without leading zeros. -/
def readByte? (s : List Char) : Option UInt8 :=
  ((readDecimal? s).filter fun n => n < 256 && decimal n == s).map UInt8.ofNat

/-- Four bytes with dots between them. -/
def readDottedBytes? (s : List Char) : Option (UInt8 × UInt8 × UInt8 × UInt8) :=
  match s.splitOn '.' with
  | [a, b, c, d] => do return (← readByte? a, ← readByte? b, ← readByte? c, ← readByte? d)
  | _ => none

def Ipv6.groupOfBytes (high low : UInt8) : UInt16 :=
  UInt16.ofNat (256 * high.toNat + low.toNat)

/-- The last two groups of an address may be written as four bytes with dots between them. -/
def Ipv6.readGroups? : List (List Char) → Option (List UInt16)
  | [] => some []
  | [s] =>
    match readDottedBytes? s with
    | some (a, b, c, d) => some [Ipv6.groupOfBytes a b, Ipv6.groupOfBytes c d]
    | none => (Ipv6.readGroup? s).map fun g => [g]
  | s :: rest => do return (← Ipv6.readGroup? s) :: (← Ipv6.readGroups? rest)

/-- The parts of a text before and after the first pair of colons. -/
def Ipv6.cutAtGap? : List Char → Option (List Char × List Char)
  | ':' :: ':' :: rest => some ([], rest)
  | c :: rest => (Ipv6.cutAtGap? rest).map fun cut => (c :: cut.1, cut.2)
  | [] => none

/-- The texts between colons, none in an empty text. -/
def Ipv6.fields (s : List Char) : List (List Char) :=
  if s = [] then [] else s.splitOn ':'

def Ipv6.ofGroups? (groups : List UInt16) : Option Ipv6 :=
  if h : groups.length = 8 then some ⟨groups, h⟩ else none

/-- Eight groups with colons between them; a pair of colons stands for one or more groups that
are zero. -/
def Ipv6.parse? (s : List Char) : Option Ipv6 :=
  match Ipv6.cutAtGap? s with
  | none => (Ipv6.readGroups? (Ipv6.fields s)).bind Ipv6.ofGroups?
  | some (before, after) => do
    let left ← (Ipv6.fields before).mapM Ipv6.readGroup?
    let right ← Ipv6.readGroups? (Ipv6.fields after)
    let count := left.length + right.length
    if count ≤ 7 then Ipv6.ofGroups? (left ++ List.replicate (8 - count) 0 ++ right) else none

/-- The bytes of an address of version 4 that is mapped into version 6. -/
def Ipv6.mapped? (a : Ipv6) : Option (UInt16 × UInt16) :=
  match a.groups with
  | [0, 0, 0, 0, 0, 0xffff, high, low] => some (high, low)
  | _ => none

/-- The number of zeros a list of groups begins with. -/
def Ipv6.leadingZeros (groups : List UInt16) : Nat :=
  (groups.takeWhile (· == 0)).length

/-- The first of the longest runs of zeros: where it begins, and its length. -/
def Ipv6.longestGap (groups : List UInt16) : Nat × Nat :=
  (List.range groups.length).foldl
    (fun best start =>
      let length := Ipv6.leadingZeros (groups.drop start)
      if best.2 < length then (start, length) else best)
    (0, 0)

def Ipv6.joinGroups (groups : List UInt16) : List Char :=
  List.intercalate [':'] (groups.map fun g => hexadecimal g.toNat)

def Ipv6.dottedBytes (high low : UInt16) : List Char :=
  List.intercalate ['.'] ([high.toNat / 256, high.toNat % 256, low.toNat / 256,
    low.toNat % 256].map decimal)

/-- Mapped addresses keep their bytes; in others the first of the longest runs of two or more
zeros is left out. -/
def Ipv6.chars (a : Ipv6) : List Char :=
  match a.mapped? with
  | some (high, low) => ':' :: ':' :: (hexadecimal 0xffff ++ ':' :: Ipv6.dottedBytes high low)
  | none =>
    let (start, length) := Ipv6.longestGap a.groups
    if length < 2 then Ipv6.joinGroups a.groups
    else Ipv6.joinGroups (a.groups.take start) ++
      ':' :: ':' :: Ipv6.joinGroups (a.groups.drop (start + length))

end LedgerClient
