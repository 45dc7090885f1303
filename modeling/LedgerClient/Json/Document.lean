import LedgerClient.Json.Token

namespace LedgerClient

/-- A JSON text as it is written: members may repeat a name, and some values are well written
without standing for anything. What is read of a document decides what it must mean. -/
inductive Document
  | null
  | bool (b : Bool)
  | number (value : Option Number)
  | text (value : Option String)
  | list (items : List Document)
  | record (members : List (Option String × Document))
deriving Inhabited

/-- A container whose end has not been read, with what it holds so far in reverse. -/
inductive Document.Open
  | list (items : List Document)
  | record (members : List (Option String × Document)) (key : Option String)

/-- What may come next. -/
inductive Document.Expect
  | value
  | valueOrEnd
  | key (members : List (Option String × Document))
  | keyOrEnd
  | colon (members : List (Option String × Document)) (key : Option String)
  | afterItem (items : List Document)
  | afterMember (members : List (Option String × Document))
  | done (d : Document)

/-- The containers that are open around the place that is read, the innermost first. -/
structure Document.Reader where
  around : List Document.Open
  expect : Document.Expect

/-- Hands a complete value to the innermost container. -/
def Document.deliver (d : Document) : List Document.Open → Document.Reader
  | [] => ⟨[], .done d⟩
  | .list items :: around => ⟨around, .afterItem (d :: items)⟩
  | .record members key :: around => ⟨around, .afterMember ((key, d) :: members)⟩

/-- Reads a token where a value may begin. -/
def Document.Reader.value? (around : List Document.Open) : Token → Option Document.Reader
  | .null => some (Document.null.deliver around)
  | .bool b => some ((Document.bool b).deliver around)
  | .number n => some ((Document.number n).deliver around)
  | .text s => some ((Document.text s).deliver around)
  | .openList => some ⟨around, .valueOrEnd⟩
  | .openRecord => some ⟨around, .keyOrEnd⟩
  | _ => none

def Document.Reader.step (r : Document.Reader) (t : Token) : Option Document.Reader :=
  match r.expect with
  | .value => Document.Reader.value? r.around t
  | .valueOrEnd =>
    match t with
    | .closeList => some ((Document.list []).deliver r.around)
    | _ => Document.Reader.value? (.list [] :: r.around) t
  | .keyOrEnd =>
    match t with
    | .closeRecord => some ((Document.record []).deliver r.around)
    | .text k => some ⟨r.around, .colon [] k⟩
    | _ => none
  | .key members =>
    match t with
    | .text k => some ⟨r.around, .colon members k⟩
    | _ => none
  | .colon members k =>
    match t with
    | .colon => some ⟨.record members k :: r.around, .value⟩
    | _ => none
  | .afterItem items =>
    match t with
    | .comma => some ⟨.list items :: r.around, .value⟩
    | .closeList => some ((Document.list items.reverse).deliver r.around)
    | _ => none
  | .afterMember members =>
    match t with
    | .comma => some ⟨r.around, .key members⟩
    | .closeRecord => some ((Document.record members.reverse).deliver r.around)
    | _ => none
  | .done _ => none

/-- The document that a list of tokens spells, no token left over. -/
def Document.ofTokens? (ts : List Token) : Option Document :=
  match ts.foldlM Document.Reader.step ⟨[], .value⟩ with
  | some ⟨_, .done d⟩ => some d
  | _ => none

def Document.parse? (text : List Char) : Option Document :=
  (tokens? text).bind Document.ofTokens?

mutual

/-- The value of a document whose containers nest no deeper than `room`. -/
def Document.value? (room : Nat) : Document → Option Json
  | .null => some .null
  | .bool b => some (.bool b)
  | .number n => n.map Json.number
  | .text s => s.map Json.text
  | .list items =>
    match room with
    | 0 => none
    | room + 1 => (Document.values? room items).map Json.list
  | .record members =>
    match room with
    | 0 => none
    | room + 1 => (Document.memberValues? room members).map Json.record

def Document.values? (room : Nat) : List Document → Option (List Json)
  | [] => some []
  | d :: rest => do return (← d.value? room) :: (← Document.values? room rest)

def Document.memberValues? (room : Nat) :
    List (Option String × Document) → Option (List (String × Json))
  | [] => some []
  | (k, d) :: rest => do return (← k, ← d.value? room) :: (← Document.memberValues? room rest)

end

/-- How deep the containers of a text may nest where their values are read. -/
def nestingLimit : Nat := 127

/-- The value of a text. -/
def Json.parse? (text : String) : Option Json :=
  (Document.parse? text.toList).bind (Document.value? nestingLimit)

mutual

/-- A value as a document. -/
def Json.document : Json → Document
  | .null => .null
  | .bool b => .bool b
  | .number n => .number (some n)
  | .text s => .text (some s)
  | .list items => .list (Json.documents items)
  | .record members => .record (Json.memberDocuments members)

def Json.documents : List Json → List Document
  | [] => []
  | j :: rest => j.document :: Json.documents rest

def Json.memberDocuments : List (String × Json) → List (Option String × Document)
  | [] => []
  | (k, j) :: rest => (some k, j.document) :: Json.memberDocuments rest

end

end LedgerClient
