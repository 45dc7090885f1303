import LedgerClient.Json.Basic
import LedgerClient.Text.Hexadecimal

namespace LedgerClient

/-- Digits without the underscores that may stand between two of them. -/
def Toml.digits? (isDigit : Char → Bool) (s : List Char) : Option (List Char) :=
  let parts := s.splitOn '_'
  if parts.all fun part => !part.isEmpty && part.all isDigit then some parts.flatten else none

/-- Digits of which the first is a zero only if it is the only one. -/
def Toml.leadingDigits? (s : List Char) : Option (List Char) :=
  match Toml.digits? Char.isDigit s with
  | some ('0' :: _ :: _) => none
  | digits => digits

/-- A sign and what it stands before. -/
def Toml.sign : List Char → Bool × List Char
  | '-' :: rest => (true, rest)
  | '+' :: rest => (false, rest)
  | s => (false, s)

/-- The number that digits of a base stand for. -/
def Toml.ofDigits (base : Nat) (digits : List Char) : Nat :=
  digits.foldl (fun n c => base * n + (hexValue? c).getD 0) 0

/-- An integer, if it fits a signed word of 64 bits. -/
def Toml.signed? (negative : Bool) (n : Nat) : Option Number :=
  if negative && n != 0 then
    if h : n - 1 < 0x8000000000000000 then some (.negative ⟨n - 1, h⟩) else none
  else if n < 0x8000000000000000 then some (.natural (UInt64.ofNat n))
  else none

def Toml.isDigitBelow (base : Nat) (c : Char) : Bool :=
  (hexValue? c).any (· < base)

def Toml.based? (base : Nat) (s : List Char) : Option Number :=
  (Toml.digits? (Toml.isDigitBelow base) s).bind fun digits =>
    Toml.signed? false (Toml.ofDigits base digits)

def Toml.integer? : List Char → Option Number
  | '0' :: 'x' :: s => Toml.based? 16 s
  | '0' :: 'o' :: s => Toml.based? 8 s
  | '0' :: 'b' :: s => Toml.based? 2 s
  | s =>
    let (negative, s) := Toml.sign s
    (Toml.leadingDigits? s).bind fun digits => Toml.signed? negative (Toml.ofDigits 10 digits)

/-- Whether the number `n * 10 ^ e` lies beyond all doubles. -/
def Toml.overflows (n : Nat) (e : Int) : Bool :=
  let order := (decimal n).length + e
  if n = 0 || order < 0 then false
  else if 310 < order then true
  else
    let (p, q) := timesPowerOfTen n 1 e
    (Double.round? false p q).isNone

/-- The exponent of a number with a fraction, zero if there is none. -/
def Toml.exponent? : List Char → Option Int
  | [] => some 0
  | c :: s =>
    if c = 'e' || c = 'E' then
      let (negative, s) := Toml.sign s
      (Toml.digits? Char.isDigit s).map fun digits =>
        let n : Int := Toml.ofDigits 10 digits
        if negative then -n else n
    else none

/-- Whether a text is a number with a fraction or an exponent. One that is too great is not a
number unless it is negative. -/
def Toml.isFloat (s : List Char) : Bool :=
  let (negative, s) := Toml.sign s
  if s = ['i', 'n', 'f'] || s = ['n', 'a', 'n'] then true
  else
    let inWhole (c : Char) : Bool := c.isDigit || c == '_'
    let rest := s.dropWhile inWhole
    let (fraction, rest) := match rest with
      | '.' :: rest => (some (rest.takeWhile inWhole), rest.dropWhile inWhole)
      | rest => (none, rest)
    if fraction.isNone && rest.isEmpty then false
    else
      let read := do
        let whole ← Toml.leadingDigits? (s.takeWhile inWhole)
        let fraction ← match fraction with
          | none => some []
          | some part => Toml.digits? Char.isDigit part
        let e ← Toml.exponent? rest
        some (Toml.ofDigits 10 (whole ++ fraction), e - fraction.length)
      match read with
      | none => false
      | some (n, e) => negative || !Toml.overflows n e

/-- Two digits that stand for a number between two bounds. -/
def Toml.inRange (low high : Nat) (a b : Char) : Bool :=
  (readDecimal? [a, b]).any fun n => low ≤ n && n ≤ high

def daysInMonth (year month : Nat) : Nat :=
  if month = 2 then
    if year % 4 = 0 ∧ (year % 100 ≠ 0 ∨ year % 400 = 0) then 29 else 28
  else if month = 4 ∨ month = 6 ∨ month = 9 ∨ month = 11 then 30
  else 31

/-- The text after a date. -/
def Toml.date? : List Char → Option (List Char)
  | y1 :: y2 :: y3 :: y4 :: '-' :: m1 :: m2 :: '-' :: d1 :: d2 :: rest => do
    let year ← readDecimal? [y1, y2, y3, y4]
    let month ← readDecimal? [m1, m2]
    if 1 ≤ month && month ≤ 12 && Toml.inRange 1 (daysInMonth year month) d1 d2 then some rest
    else none
  | _ => none

/-- The text after a time of day. -/
def Toml.time? : List Char → Option (List Char)
  | h1 :: h2 :: ':' :: m1 :: m2 :: ':' :: s1 :: s2 :: rest =>
    if Toml.inRange 0 23 h1 h2 && Toml.inRange 0 59 m1 m2 && Toml.inRange 0 60 s1 s2 then
      match rest with
      | '.' :: c :: rest => if c.isDigit then some (rest.dropWhile Char.isDigit) else none
      | rest => some rest
    else none
  | _ => none

/-- Nothing, or the distance of a clock from the universal time. -/
def Toml.isOffset : List Char → Bool
  | [] => true
  | ['Z'] => true
  | ['z'] => true
  | [sign, h1, h2, ':', m1, m2] =>
    (sign == '+' || sign == '-') && Toml.inRange 0 23 h1 h2 && Toml.inRange 0 59 m1 m2
  | _ => false

/-- A time of day with an offset. -/
def Toml.isClock (s : List Char) : Bool :=
  (Toml.time? s).any Toml.isOffset

/-- A date with or without a time of day, or a time alone. -/
def Toml.isMoment (s : List Char) : Bool :=
  match Toml.date? s with
  | some [] => true
  | some (c :: clock) => (c == 'T' || c == 't') && Toml.isClock clock
  | none => Toml.time? s == some []

end LedgerClient
