import LedgerClient.Json.Basic
import LedgerClient.Text.Hexadecimal

namespace LedgerClient

/-- A number too great for a double and a text with half a surrogate pair are well written, but
have no value. -/
inductive Token
  | openList
  | closeList
  | openRecord
  | closeRecord
  | comma
  | colon
  | null
  | bool (b : Bool)
  | number (value : Option Number)
  | text (value : Option String)
deriving DecidableEq, Repr

/-- The parts of a number as they were written, the digits in reverse. -/
structure NumberParts where
  negative : Bool
  whole : List Char
  fraction : List Char
  exponentNegative : Bool
  exponent : List Char
deriving DecidableEq, Repr

/-- Adds digits to a number as long as it stays below `2 ^ 64`, and gives the digits left over. -/
def takeDigits (n : Nat) : List Char → Nat × List Char
  | [] => (n, [])
  | c :: rest =>
    let next := 10 * n + (c.toNat - '0'.toNat)
    if next < UInt64.size then takeDigits next rest else (n, c :: rest)

/-- Digits as an exponent, which stands still at `2 ^ 31`. -/
def readExponent (digits : List Char) : Nat :=
  min (Nat.ofDigitChars 10 digits 0) 0x80000000

/-- The number that is meant. Integers are exact as far as they fit; for all others the first
digits, as many as fit 64 bits, are scaled by the power of ten that remains. -/
def NumberParts.value? (p : NumberParts) : Option Number :=
  let (n, dropped) := takeDigits 0 p.whole.reverse
  let scaled (n : Nat) (e : Int) : Option Number :=
    ((Double.ofNat? n).bind fun x => x.scale? e).map fun x =>
      .double { x with negative := p.negative }
  if p.fraction = [] ∧ p.exponent = [] then
    if dropped ≠ [] then scaled n dropped.length
    else if p.negative then
      if h : 0 < n ∧ n ≤ 0x8000000000000000 then some (.negative ⟨n - 1, by omega⟩) else scaled n 0
    else some (.natural (UInt64.ofNat n))
  else
    let digits := p.fraction.reverse
    let (n, surplus) := takeDigits n digits
    let e : Int := (dropped.length : Int) - ((digits.length : Int) - surplus.length)
    let shift := readExponent p.exponent.reverse
    if 0x80000000 ≤ shift then
      if n = 0 ∨ p.exponentNegative then some (.double ⟨p.negative, 0, -1074⟩) else none
    else scaled n (if p.exponentNegative then e - shift else e + shift)

/-- How far a number has been read. -/
inductive NumberStage
  | sign
  | zero
  | whole
  | point
  | fraction
  | mark
  | markSign
  | exponent
deriving DecidableEq, Repr

/-- Whether a number may end here. -/
def NumberStage.closed : NumberStage → Bool
  | .zero | .whole | .fraction | .exponent => true
  | _ => false

/-- A text as far as it has been read, in reverse: a high surrogate that still waits for its low
one, and whether half a pair has been left alone. -/
structure Quoted where
  chars : List Char
  high : Option Nat
  broken : Bool
deriving DecidableEq, Repr

def Quoted.push (q : Quoted) (c : Char) : Quoted :=
  ⟨c :: q.chars, none, q.broken || q.high.isSome⟩

/-- Adds a unit of sixteen bits. -/
def Quoted.pushUnit (q : Quoted) (u : Nat) : Quoted :=
  if 0xDC00 ≤ u ∧ u < 0xE000 then
    match q.high with
    | some h =>
      let c := Char.ofNat (0x10000 + (h - 0xD800) * 0x400 + (u - 0xDC00))
      ⟨c :: q.chars, none, q.broken⟩
    | none => { q with broken := true }
  else if 0xD800 ≤ u ∧ u < 0xDC00 then ⟨q.chars, some u, q.broken || q.high.isSome⟩
  else q.push (Char.ofNat u)

def Quoted.value? (q : Quoted) : Option String :=
  if q.broken || q.high.isSome then none else some (String.ofList q.chars.reverse)

/-- What is being read. -/
inductive LexState
  | between
  | word (token : Token) (rest : List Char)
  | number (stage : NumberStage) (parts : NumberParts)
  | quoted (q : Quoted)
  | escaped (q : Quoted)
  | unit (q : Quoted) (value left : Nat)
deriving DecidableEq, Repr

/-- The first character of a token, or a blank. -/
def startToken (c : Char) : Option (LexState × List Token) :=
  if c = ' ' ∨ c = '\t' ∨ c = '\n' ∨ c = '\r' then some (.between, [])
  else if c = '[' then some (.between, [.openList])
  else if c = ']' then some (.between, [.closeList])
  else if c = '{' then some (.between, [.openRecord])
  else if c = '}' then some (.between, [.closeRecord])
  else if c = ',' then some (.between, [.comma])
  else if c = ':' then some (.between, [.colon])
  else if c = '"' then some (.quoted ⟨[], none, false⟩, [])
  else if c = '-' then some (.number .sign ⟨true, [], [], false, []⟩, [])
  else if c = '0' then some (.number .zero ⟨false, ['0'], [], false, []⟩, [])
  else if c.isDigit then some (.number .whole ⟨false, [c], [], false, []⟩, [])
  else if c = 'n' then some (.word .null ['u', 'l', 'l'], [])
  else if c = 't' then some (.word (.bool true) ['r', 'u', 'e'], [])
  else if c = 'f' then some (.word (.bool false) ['a', 'l', 's', 'e'], [])
  else none

/-- A further character of a number; a character that cannot be part of it ends it. -/
def stepNumber (stage : NumberStage) (p : NumberParts) (c : Char) :
    Option (LexState × List Token) :=
  let go (s : NumberStage) (p : NumberParts) : Option (LexState × List Token) :=
    some (.number s p, [])
  let finish : Option (LexState × List Token) :=
    (startToken c).map fun (s, ts) => (s, .number p.value? :: ts)
  match stage with
  | .sign =>
    if c = '0' then go .zero { p with whole := ['0'] }
    else if c.isDigit then go .whole { p with whole := [c] }
    else none
  | .zero =>
    if c.isDigit then none
    else if c = '.' then go .point p
    else if c = 'e' ∨ c = 'E' then go .mark p
    else finish
  | .whole =>
    if c.isDigit then go .whole { p with whole := c :: p.whole }
    else if c = '.' then go .point p
    else if c = 'e' ∨ c = 'E' then go .mark p
    else finish
  | .point => if c.isDigit then go .fraction { p with fraction := [c] } else none
  | .fraction =>
    if c.isDigit then go .fraction { p with fraction := c :: p.fraction }
    else if c = 'e' ∨ c = 'E' then go .mark p
    else finish
  | .mark =>
    if c.isDigit then go .exponent { p with exponent := [c] }
    else if c = '+' then go .markSign p
    else if c = '-' then go .markSign { p with exponentNegative := true }
    else none
  | .markSign => if c.isDigit then go .exponent { p with exponent := [c] } else none
  | .exponent =>
    if c.isDigit then go .exponent { p with exponent := c :: p.exponent } else finish

/-- The character after a backslash. -/
def stepEscape (q : Quoted) (c : Char) : Option LexState :=
  if c = '"' ∨ c = '\\' ∨ c = '/' then some (.quoted (q.push c))
  else if c = 'b' then some (.quoted (q.push '\x08'))
  else if c = 'f' then some (.quoted (q.push '\x0C'))
  else if c = 'n' then some (.quoted (q.push '\n'))
  else if c = 'r' then some (.quoted (q.push '\r'))
  else if c = 't' then some (.quoted (q.push '\t'))
  else if c = 'u' then some (.unit q 0 4)
  else none

/-- Reads one character, and gives the tokens that it completes. -/
def LexState.step : LexState → Char → Option (LexState × List Token)
  | .between, c => startToken c
  | .word token rest, c =>
    match rest with
    | [] => none
    | [d] => if c = d then some (.between, [token]) else none
    | d :: rest => if c = d then some (.word token rest, []) else none
  | .number stage p, c => stepNumber stage p c
  | .quoted q, c =>
    if c = '"' then some (.between, [.text q.value?])
    else if c = '\\' then some (.escaped q, [])
    else if c.toNat < 0x20 then none
    else some (.quoted (q.push c), [])
  | .escaped q, c => (stepEscape q c).map fun s => (s, [])
  | .unit q value left, c => do
    let d ← hexValue? c
    let value := 16 * value + d
    match left with
    | 0 => none
    | 1 => return (.quoted (q.pushUnit value), [])
    | left + 2 => return (.unit q value (left + 1), [])

/-- The token that the end of the text completes, if the text may end here. -/
def LexState.finish : LexState → Option (List Token)
  | .between => some []
  | .number stage p => if stage.closed then some [.number p.value?] else none
  | _ => none

/-- Reads the rest of a text after the tokens `done`, which are in reverse. -/
def lexFrom (done : List Token) : LexState → List Char → Option (List Token)
  | s, [] => s.finish.map fun ts => (ts.reverse ++ done).reverse
  | s, c :: rest =>
    match s.step c with
    | some (s, ts) => lexFrom (ts.reverse ++ done) s rest
    | none => none

/-- The tokens of a text, if it is made of tokens and blanks. -/
def tokens? (text : List Char) : Option (List Token) :=
  lexFrom [] .between text

end LedgerClient
