import LedgerClient.Text.Hexadecimal

namespace LedgerClient

/-- The text with `\n` at the end of all lines, if each `\r` in it belongs to the end of a line. -/
def Toml.unixLines? : List Char → Option (List Char)
  | [] => some []
  | '\r' :: '\n' :: rest => (Toml.unixLines? rest).map ('\n' :: ·)
  | c :: rest => if c = '\r' then none else (Toml.unixLines? rest).map (c :: ·)

/-- Characters of comments and strings: all but control characters, among which the tab is one. -/
def Toml.isText (c : Char) : Bool :=
  c == '\t' || (0x20 ≤ c.toNat && c.toNat != 0x7F)

def Toml.isBlank (c : Char) : Bool :=
  c == ' ' || c == '\t'

def Toml.skipBlanks (s : List Char) : List Char :=
  s.dropWhile Toml.isBlank

/-- Skips blanks, line ends and comments. -/
def Toml.skipFiller (inComment : Bool) : List Char → List Char
  | [] => []
  | c :: rest =>
    if c = '\n' then Toml.skipFiller false rest
    else if inComment then (if Toml.isText c then Toml.skipFiller true rest else c :: rest)
    else if Toml.isBlank c then Toml.skipFiller false rest
    else if c = '#' then Toml.skipFiller true rest
    else c :: rest

/-- The text after the end of a line, before which there may be blanks and a comment. -/
def Toml.lineEnd? (s : List Char) : Option (List Char) :=
  let s := match Toml.skipBlanks s with
    | '#' :: rest => rest.dropWhile Toml.isText
    | s => s
  match s with
  | [] => some []
  | '\n' :: rest => some rest
  | _ => none

def Toml.escaped? : Char → Option Char
  | 'b' => some '\x08'
  | 't' => some '\t'
  | 'n' => some '\n'
  | 'f' => some '\x0C'
  | 'r' => some '\r'
  | '"' => some '"'
  | '\\' => some '\\'
  | _ => none

/-- The character with a number in hexadecimal. -/
def Toml.scalar? (digits : List Char) : Option Char :=
  (readHex? digits).bind fun n => if n.isValidChar then some (Char.ofNat n) else none

/-- Adds a character to what a reader of the rest returns. -/
def Toml.before (c : Char) (read : Option (List Char × List Char)) :
    Option (List Char × List Char) :=
  read.map fun r => (c :: r.1, r.2)

/-- The rest of a string after its opening quote. -/
def Toml.basicString? : List Char → Option (List Char × List Char)
  | [] => none
  | '"' :: rest => some ([], rest)
  | '\\' :: 'u' :: a :: b :: c :: d :: rest =>
    (Toml.scalar? [a, b, c, d]).bind fun x => Toml.before x (Toml.basicString? rest)
  | '\\' :: 'U' :: a :: b :: c :: d :: e :: f :: g :: h :: rest =>
    (Toml.scalar? [a, b, c, d, e, f, g, h]).bind fun x => Toml.before x (Toml.basicString? rest)
  | '\\' :: e :: rest =>
    (Toml.escaped? e).bind fun x => Toml.before x (Toml.basicString? rest)
  | c :: rest =>
    if Toml.isText c && c != '\\' then Toml.before c (Toml.basicString? rest) else none

def Toml.literalString? : List Char → Option (List Char × List Char)
  | [] => none
  | '\'' :: rest => some ([], rest)
  | c :: rest => if Toml.isText c then Toml.before c (Toml.literalString? rest) else none

/-- Up to two quotes may stand between the text of a string and the three quotes that end it. -/
def Toml.closingQuotes (quote : Char) : List Char → List Char × List Char
  | a :: b :: rest =>
    if a = quote && b = quote then ([a, b], rest)
    else if a = quote then ([a], b :: rest)
    else ([], a :: b :: rest)
  | [a] => if a = quote then ([a], []) else ([], [a])
  | [] => ([], [])

/-- Where a string of several lines is read. -/
inductive Toml.Position
  | text
  /-- After a backslash at the end of a line, before the line's end. -/
  | lineEnd
  /-- After such a line's end: blanks and line ends do not count. -/
  | gap

/-- The rest of a string of several lines after its opening quotes. -/
def Toml.longBasicString? : Toml.Position → List Char → Option (List Char × List Char)
  | _, [] => none
  | .lineEnd, c :: rest =>
    if c = '\n' then Toml.longBasicString? .gap rest
    else if Toml.isBlank c then Toml.longBasicString? .lineEnd rest
    else none
  | .text, '"' :: '"' :: '"' :: rest => some (Toml.closingQuotes '"' rest)
  | .gap, '"' :: '"' :: '"' :: rest => some (Toml.closingQuotes '"' rest)
  | _, '\\' :: 'u' :: a :: b :: c :: d :: rest =>
    (Toml.scalar? [a, b, c, d]).bind fun x => Toml.before x (Toml.longBasicString? .text rest)
  | _, '\\' :: 'U' :: a :: b :: c :: d :: e :: f :: g :: h :: rest =>
    (Toml.scalar? [a, b, c, d, e, f, g, h]).bind fun x =>
      Toml.before x (Toml.longBasicString? .text rest)
  | _, '\\' :: e :: rest =>
    if e = '\n' then Toml.longBasicString? .gap rest
    else if Toml.isBlank e then Toml.longBasicString? .lineEnd rest
    else (Toml.escaped? e).bind fun x => Toml.before x (Toml.longBasicString? .text rest)
  | .gap, c :: rest =>
    if c = '\n' || Toml.isBlank c then Toml.longBasicString? .gap rest
    else if Toml.isText c && c != '\\' then Toml.before c (Toml.longBasicString? .text rest)
    else none
  | .text, c :: rest =>
    if c = '\n' || (Toml.isText c && c != '\\') then
      Toml.before c (Toml.longBasicString? .text rest)
    else none

def Toml.longLiteralString? : List Char → Option (List Char × List Char)
  | [] => none
  | '\'' :: '\'' :: '\'' :: rest => some (Toml.closingQuotes '\'' rest)
  | c :: rest =>
    if c = '\n' || Toml.isText c then Toml.before c (Toml.longLiteralString? rest) else none

/-- Drops the end of a line directly after the quotes that open a string of several lines. -/
def Toml.dropLineEnd : List Char → List Char
  | '\n' :: rest => rest
  | s => s

/-- A string of any form, from its opening quote. -/
def Toml.string? : List Char → Option (List Char × List Char)
  | '"' :: '"' :: '"' :: rest => Toml.longBasicString? .text (Toml.dropLineEnd rest)
  | '"' :: rest => Toml.basicString? rest
  | '\'' :: '\'' :: '\'' :: rest => Toml.longLiteralString? (Toml.dropLineEnd rest)
  | '\'' :: rest => Toml.literalString? rest
  | _ => none

def Toml.isBareKey (c : Char) : Bool :=
  c.isAlphanum || c == '-' || c == '_'

/-- One part of a key. -/
def Toml.keyPart? : List Char → Option (List Char × List Char)
  | '"' :: rest => Toml.basicString? rest
  | '\'' :: rest => Toml.literalString? rest
  | s =>
    let part := s.takeWhile Toml.isBareKey
    if part = [] then none else some (part, s.dropWhile Toml.isBareKey)

/-- The parts of a key, with dots between them. -/
def Toml.keyParts? (s : List Char) : Option (List String × List Char) :=
  match Toml.keyPart? (Toml.skipBlanks s) with
  | none => none
  | some (part, rest) =>
    match Toml.skipBlanks rest with
    | '.' :: rest =>
      if rest.length < s.length then
        (Toml.keyParts? rest).map fun r => (String.ofList part :: r.1, r.2)
      else none
    | rest => some ([String.ofList part], rest)
termination_by s.length

/-- Keys have fewer parts than this, and values have fewer containers around them. -/
def Toml.depthLimit : Nat := 80

def Toml.key? (s : List Char) : Option (List String × List Char) :=
  (Toml.keyParts? s).filter fun r => r.1.length < Toml.depthLimit

end LedgerClient
