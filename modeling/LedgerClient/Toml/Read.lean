import LedgerClient.Toml.Number
import LedgerClient.Toml.Text
import LedgerClient.Toml.Tree

namespace LedgerClient

/-- The characters that may follow a number, a date or a name. -/
def Toml.endsWord (c : Char) : Bool :=
  Toml.isBlank c || c == '\n' || c == '#' || c == ',' || c == ']' || c == '\x7d'

/-- A value without quotes and brackets, as one word. Numbers with a fraction and dates are well
written, but nothing here has a use for them. -/
def Toml.wordDocument? (word : List Char) : Option Document :=
  if word = ['t', 'r', 'u', 'e'] then some (.bool true)
  else if word = ['f', 'a', 'l', 's', 'e'] then some (.bool false)
  else if Toml.isMoment word then some (.record [])
  else if Toml.isFloat word then some (.number none)
  else (Toml.integer? word).map fun n => .number (some n)

/-- A word, or a date and a time of day with a space between them. -/
def Toml.word? (s : List Char) : Option (Document × List Char) :=
  let word := s.takeWhile fun c => !Toml.endsWord c
  let rest := s.dropWhile fun c => !Toml.endsWord c
  let clock := (rest.drop 1).takeWhile fun c => !Toml.endsWord c
  if Toml.date? word = some [] && rest.head? = some ' ' && !clock.isEmpty then
    if Toml.isClock clock then some (.record [], rest.drop (clock.length + 1)) else none
  else (Toml.wordDocument? word).map fun d => (d, rest)

/-- The rest of a list after its opening bracket. -/
def Toml.items? (value : List Char → Option (Document × List Char)) (s : List Char) :
    Option (List Document × List Char) :=
  match Toml.skipFiller false s with
  | ']' :: rest => some ([], rest)
  | s' => do
    let (d, rest) ← value s'
    match Toml.skipFiller false rest with
    | ']' :: rest => some ([d], rest)
    | ',' :: rest =>
      if rest.length < s.length then
        (Toml.items? value rest).map fun r => (d :: r.1, r.2)
      else none
    | _ => none
termination_by s.length

/-- A key, the sign after it, and the text of its value. -/
def Toml.keyBeforeValue? (s : List Char) : Option (List String × List Char) :=
  match Toml.key? s with
  | some (key, '=' :: rest) => some (key, Toml.skipBlanks rest)
  | _ => none

/-- The rest of a table in braces, after the brace or a comma. -/
def Toml.pairs? (value : List Char → Option (Document × List Char)) (entries : Toml.Entries)
    (s : List Char) : Option (Toml.Entries × List Char) := do
  let (key, rest) ← Toml.keyBeforeValue? s
  let (d, rest) ← value rest
  let entries ← Toml.assign key.dropLast (key.getLast?.getD "") d entries
  match Toml.skipBlanks rest with
  | '\x7d' :: rest => some (entries, rest)
  | ',' :: rest => if rest.length < s.length then Toml.pairs? value entries rest else none
  | _ => none
termination_by s.length

/-- A value that has less than `room` containers in it, one in the other. -/
def Toml.value? : (room : Nat) → List Char → Option (Document × List Char)
  | 0, '[' :: _ => none
  | room + 1, '[' :: rest =>
    (Toml.items? (Toml.value? room) rest).map fun r => (.list r.1, r.2)
  | 0, '\x7b' :: _ => none
  | room + 1, '\x7b' :: rest =>
    match Toml.skipBlanks rest with
    | '\x7d' :: rest => some (.record [], rest)
    | rest =>
      (Toml.pairs? (Toml.value? room) [] rest).map fun r =>
        (.record (Toml.entriesDocument r.1), r.2)
  | _, '"' :: rest => (Toml.string? ('"' :: rest)).map fun r =>
      (.text (some (String.ofList r.1)), r.2)
  | _, '\'' :: rest => (Toml.string? ('\'' :: rest)).map fun r =>
      (.text (some (String.ofList r.1)), r.2)
  | _, s => Toml.word? s

/-- What has been read of a text: all tables, and the header that new keys belong to. -/
structure Toml.Reader where
  root : Toml.Entries
  header : List String

/-- Gives a value to a key below the current header. -/
def Toml.Reader.assign? (r : Toml.Reader) (key : List String) (d : Document) :
    Option Toml.Reader :=
  (Toml.descend false (fun _ => Toml.assign key.dropLast (key.getLast?.getD "") d) r.header
    .header r.root).map fun root => { r with root := root }

/-- Reads a header or a key with its value, and the end of the line. -/
def Toml.Reader.statement? (r : Toml.Reader) : List Char → Option (Toml.Reader × List Char)
  | '[' :: '[' :: s => do
    match ← Toml.key? s with
    | (header, ']' :: ']' :: rest) =>
      let rest ← Toml.lineEnd? rest
      return (⟨← Toml.openRow header r.root, header⟩, rest)
    | _ => none
  | '[' :: s => do
    match ← Toml.key? s with
    | (header, ']' :: rest) =>
      let rest ← Toml.lineEnd? rest
      return (⟨← Toml.openTable header r.root, header⟩, rest)
    | _ => none
  | s => do
    let (key, rest) ← Toml.keyBeforeValue? s
    let (d, rest) ← Toml.value? (Toml.depthLimit - 1) rest
    let rest ← Toml.lineEnd? rest
    return (← r.assign? key d, rest)

/-- Reads all lines of a text. -/
def Toml.Reader.statements? (r : Toml.Reader) (s : List Char) : Option Toml.Reader :=
  match Toml.skipFiller false s with
  | [] => some r
  | s' => do
    let (r, rest) ← r.statement? s'
    if rest.length < s.length then r.statements? rest else none
termination_by s.length

/-- The document that a text stands for. -/
def Toml.parse? (text : String) : Option Document := do
  let s ← Toml.unixLines? (match text.toList with
    | '\uFEFF' :: rest => rest
    | s => s)
  let r ← Toml.Reader.statements? ⟨[], []⟩ s
  return .record (Toml.entriesDocument r.root)

end LedgerClient
