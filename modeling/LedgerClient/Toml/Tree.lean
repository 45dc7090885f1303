import LedgerClient.Json.Document

namespace LedgerClient

/-- How a table came to be. This decides what may be added to it. -/
inductive Toml.Origin
  /-- It has a header of its own. -/
  | header
  /-- It is on the way to a table with a header. -/
  | path
  /-- It is on the way to a key with dots. -/
  | dotted
deriving DecidableEq

inductive Toml.Item
  | value (d : Document)
  | table (origin : Toml.Origin) (entries : List (String × Toml.Item))
  /-- Tables with one header, the last one first. -/
  | rows (last : List (String × Toml.Item)) (earlier : List (List (String × Toml.Item)))

abbrev Toml.Entries := List (String × Toml.Item)

/-- Changes or adds the entry with a key. -/
def Toml.alter (key : String) (f : Option Toml.Item → Option Toml.Item) :
    Toml.Entries → Option Toml.Entries
  | [] => (f none).map fun item => [(key, item)]
  | (k, item) :: rest =>
    if k = key then (f (some item)).map fun item => (k, item) :: rest
    else (Toml.alter key f rest).map ((k, item) :: ·)

/-- Changes the table at the end of a path. Tables that are not there yet are added. A dotted key
does not lead through a table with a header of its own. -/
def Toml.descend (isDotted : Bool) (f : Toml.Origin → Toml.Entries → Option Toml.Entries) :
    List String → Toml.Origin → Toml.Entries → Option Toml.Entries
  | [], origin, entries => f origin entries
  | key :: path, _, entries =>
    let added := if isDotted then Toml.Origin.dotted else .path
    Toml.alter key
      (fun
        | none => (Toml.descend isDotted f path added []).map (.table added)
        | some (.value _) => none
        | some (.table origin entries) =>
          if isDotted && origin = .header then none
          else (Toml.descend isDotted f path origin entries).map (.table origin)
        | some (.rows last earlier) =>
          (Toml.descend isDotted f path .header last).map fun last => .rows last earlier)
      entries

/-- Gives a value to a key of a table. The last part of a dotted key belongs to a table that dotted
keys made. -/
def Toml.assign (path : List String) (key : String) (d : Document) (entries : Toml.Entries) :
    Option Toml.Entries :=
  Toml.descend true
    (fun origin entries =>
      if decide (origin = .dotted) = path.isEmpty then none
      else Toml.alter key
        (fun
          | none => some (.value d)
          | some _ => none)
        entries)
    path .header entries

/-- Changes the entry of a header in the whole document. -/
def Toml.atHeader (f : Option Toml.Item → Option Toml.Item) (header : List String)
    (root : Toml.Entries) : Option Toml.Entries :=
  match header.getLast? with
  | none => none
  | some key => Toml.descend false (fun _ => Toml.alter key f) header.dropLast .header root

/-- Begins a table: it is not there yet, or only on the way to others. -/
def Toml.openTable : List String → Toml.Entries → Option Toml.Entries :=
  Toml.atHeader fun
    | none => some (.table .header [])
    | some (.table .path entries) => some (.table .header entries)
    | some _ => none

/-- Begins another table of those with one header. -/
def Toml.openRow : List String → Toml.Entries → Option Toml.Entries :=
  Toml.atHeader fun
    | none => some (.rows [] [])
    | some (.rows last earlier) => some (.rows [] (last :: earlier))
    | some _ => none

mutual

def Toml.Item.document : Toml.Item → Document
  | .value d => d
  | .table _ entries => .record (Toml.entriesDocument entries)
  | .rows last earlier =>
    .list (Toml.rowsDocument earlier [.record (Toml.entriesDocument last)])

def Toml.entriesDocument : List (String × Toml.Item) → List (Option String × Document)
  | [] => []
  | (k, item) :: rest => (some k, item.document) :: Toml.entriesDocument rest

def Toml.rowsDocument : List (List (String × Toml.Item)) → List Document → List Document
  | [], later => later
  | row :: rest, later => Toml.rowsDocument rest (.record (Toml.entriesDocument row) :: later)

end

end LedgerClient
