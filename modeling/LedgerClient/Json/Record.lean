import LedgerClient.Json.Document

namespace LedgerClient

/-- The documents in the fields of a record. Members with other names are passed over; a field
that is given twice is refused. A list gives the fields by their places, and may end early; it may
be longer than the record only if a surplus is allowed. -/
def Document.fields? (names : List String) (surplus : Bool) :
    Document → Option (List (Option Document))
  | .record members =>
    if members.all fun m => m.1.isSome then
      names.mapM fun name =>
        match members.filter fun m => m.1 == some name with
        | [] => some none
        | [(_, d)] => some (some d)
        | _ => none
    else none
  | .list items =>
    if items.length ≤ names.length || surplus then
      some ((List.range names.length).map fun i => items[i]?)
    else none
  | _ => none

def Document.text? : Document → Option String
  | .text s => s
  | _ => none

def Document.bool? : Document → Option Bool
  | .bool b => some b
  | _ => none

def Document.uint64? : Document → Option UInt64
  | .number (some (.natural n)) => some n
  | _ => none

def Document.uint32? (d : Document) : Option UInt32 :=
  d.uint64?.bind fun n => if n.toNat < UInt32.size then some n.toUInt32 else none

def Document.items? : Document → Option (List Document)
  | .list items => some items
  | _ => none

/-- A value, or `null` for none. -/
def Document.nullable? (read : Document → Option α) : Document → Option (Option α)
  | .null => some none
  | d => (read d).map some

/-- A name from a list of names, alone or as the only name of a record that holds `null`. -/
def Document.tag? : Document → Option String
  | .text s => s
  | .record [(k, .null)] => k
  | _ => none

/-- The value of a field that may be left out. -/
def fieldOr (default : α) (read : Document → Option α) : Option Document → Option α
  | none => some default
  | some d => read d

end LedgerClient
